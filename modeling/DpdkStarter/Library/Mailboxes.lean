import Mathlib.Tactic

/-!
Objects waiting at the nodes of a graph.

`boxes node` are the objects enqueued to a node. Over a list of all nodes they are
one list, which changes at one node at a time.

* `flatMap_update_perm`: the objects of all nodes after those of one were
  replaced.
* `flatMap_put_perm`, `flatMap_take_perm`: objects enqueued to a node, and taken
  from it.
-/

namespace DpdkStarter.Mailboxes

open scoped List

variable {ν α : Type*} [DecidableEq ν] {all : List ν} {node : ν} {boxes : ν → List α}

/-- Replacing the objects of a node outside the list changes nothing. -/
lemma flatMap_update_of_notMem (h : node ∉ all) (objs : List α) :
    all.flatMap (Function.update boxes node objs) = all.flatMap boxes :=
  List.flatMap_congr fun n hn => Function.update_of_ne (fun heq : n = node => h (heq ▸ hn)) ..

/-- **The objects of all nodes** after those of one node were replaced. -/
lemma flatMap_update_perm (hnodup : all.Nodup) (hnode : node ∈ all) (objs : List α) :
    (boxes node ++ all.flatMap (Function.update boxes node objs)).Perm
      (objs ++ all.flatMap boxes) := by
  induction all with
  | nil => simp at hnode
  | cons n ns ih =>
      rw [List.nodup_cons] at hnodup
      rw [List.flatMap_cons, List.flatMap_cons]
      by_cases hn : n = node
      · subst hn
        rw [Function.update_self, flatMap_update_of_notMem hnodup.1]
        exact List.perm_append_comm_assoc _ _ _
      · have hrest := ih hnodup.2 (List.mem_of_ne_of_mem (Ne.symm hn) hnode)
        rw [Function.update_of_ne hn]
        calc boxes node ++ (boxes n ++ ns.flatMap (Function.update boxes node objs))
            ~ boxes n ++ (boxes node ++ ns.flatMap (Function.update boxes node objs)) :=
              List.perm_append_comm_assoc _ _ _
          _ ~ boxes n ++ (objs ++ ns.flatMap boxes) := hrest.append_left _
          _ ~ objs ++ (boxes n ++ ns.flatMap boxes) := List.perm_append_comm_assoc _ _ _

/-- Objects enqueued to a node. -/
lemma flatMap_put_perm (hnodup : all.Nodup) (hnode : node ∈ all) (objs : List α) :
    (all.flatMap (Function.update boxes node (boxes node ++ objs))).Perm
      (objs ++ all.flatMap boxes) := by
  have h : (boxes node ++ all.flatMap (Function.update boxes node (boxes node ++ objs))).Perm
      (boxes node ++ objs ++ all.flatMap boxes) := flatMap_update_perm hnodup hnode _
  rw [List.append_assoc] at h
  exact (List.perm_append_left_iff _).mp h

/-- Objects taken from a node, of which the rest stays there. -/
lemma flatMap_take_perm (hnodup : all.Nodup) (hnode : node ∈ all) {objs rest : List α}
    (hperm : (boxes node).Perm (objs ++ rest)) :
    (objs ++ all.flatMap (Function.update boxes node rest)).Perm (all.flatMap boxes) := by
  have h : (boxes node ++ all.flatMap (Function.update boxes node rest)).Perm
      (rest ++ all.flatMap boxes) := flatMap_update_perm hnodup hnode rest
  refine (List.perm_append_left_iff rest).mp ?_
  calc rest ++ (objs ++ all.flatMap (Function.update boxes node rest))
      ~ objs ++ (rest ++ all.flatMap (Function.update boxes node rest)) :=
        List.perm_append_comm_assoc _ _ _
    _ = objs ++ rest ++ all.flatMap (Function.update boxes node rest) :=
        (List.append_assoc _ _ _).symm
    _ ~ boxes node ++ all.flatMap (Function.update boxes node rest) := hperm.symm.append_right _
    _ ~ rest ++ all.flatMap boxes := h

end DpdkStarter.Mailboxes
