import DpdkStarter.RxDropGraph.Conservation

/-!
Which frames go where in the graph of `graph/rx_drop_sample/sample/main.c`.

`ipv4_node` looks at the ethertype of each frame and enqueues it to one of two nodes. However
a walk is scheduled, IPv4 frames go to the device and only these; all others are freed; and
the counts that are printed add up.

* `Split`, `split_ipv4Enqueue`: what `ipv4_node_process` does with its objects.
* `Sorted`: the invariant, `Sorted.step` its preservation.
* `graph_sorts`: where the frames of a run are.
-/

namespace DpdkStarter.RxDropGraph

open Machine
open scoped List

/-! ### One call of the node -/

/-- The objects were enqueued to two nodes, by class, and nothing else changed. -/
structure Split (objs : List Mbuf) (s t : State) : Prop where
  tx_eq : t.pending .tx = s.pending .tx ++ objs.filter isIpv4
  drop_eq : t.pending .drop = s.pending .drop ++ objs.filter fun m => !isIpv4 m
  ipv4_eq : t.pending .ipv4 = s.pending .ipv4
  printed_eq : t.printed = s.printed
  received_eq : t.received = s.received
  nic_eq : t.nic = s.nic
  freed_eq : t.freed = s.freed

lemma split_ipv4Enqueue (objs : List Mbuf) (s : State) :
    Split objs s (objs.foldl ipv4Enqueue s) := by
  induction objs generalizing s with
  | nil => exact ⟨by simp, by simp, rfl, rfl, rfl, rfl, rfl⟩
  | cons m objs ih =>
      obtain ⟨htx, hdrop, hipv4, hprinted, hreceived, hnic, hfreed⟩ := ih (ipv4Enqueue s m)
      rw [List.foldl_cons]
      by_cases hm : isIpv4 m = true
      · have hone : ipv4Enqueue s m = s.put .tx [m] := by
          rw [ipv4Enqueue, if_pos hm]
          rfl
        rw [hone] at htx hdrop hipv4 hprinted hreceived hnic hfreed ⊢
        refine ⟨?_, ?_, ?_, hprinted, hreceived, hnic, hfreed⟩
        · rw [htx, List.filter_cons_of_pos hm, State.put]
          simp
        · rw [hdrop, List.filter_cons_of_neg (by simp [hm]), State.put]
          simp
        · rw [hipv4, State.put]
          simp
      · have hone : ipv4Enqueue s m = s.put .drop [m] := by
          rw [ipv4Enqueue, if_neg hm]
          rfl
        rw [hone] at htx hdrop hipv4 hprinted hreceived hnic hfreed ⊢
        refine ⟨?_, ?_, ?_, hprinted, hreceived, hnic, hfreed⟩
        · rw [htx, List.filter_cons_of_neg hm, State.put]
          simp
        · rw [hdrop, List.filter_cons_of_pos (by simp [hm]), State.put]
          simp
        · rw [hipv4, State.put]
          simp

/-! ### The invariant -/

/-- **The invariant**: each node has frames of its class, every frame that is not IPv4 is on
its way to `drop_node` or freed, and every frame that left the queue of `ipv4_node` was
counted. -/
structure Sorted (s : State) : Prop where
  tx : ∀ m ∈ s.pending .tx, isIpv4 m = true
  drop : ∀ m ∈ s.pending .drop, isIpv4 m = false
  nic : ∀ m ∈ s.nic, isIpv4 m = true
  freed : ∀ m ∈ s.freed, isIpv4 m = false
  others : (s.received.filter fun m => !isIpv4 m).Perm
    ((s.pending .ipv4).filter (fun m => !isIpv4 m) ++ (s.pending .drop ++ s.freed))
  counted : s.received.length = (s.pending .ipv4).length + s.printed.sum

lemma sorted_init : Sorted State.init :=
  ⟨by simp [State.init], by simp [State.init], by simp [State.init], by simp [State.init],
    List.Perm.refl _, rfl⟩

/-- The start of a walk. -/
lemma Sorted.rx {s : State} (h : Sorted s) (pkts : List Mbuf) : Sorted (rxNodeProcess pkts s) := by
  rw [rxNodeProcess]
  by_cases hlen : pkts.length > 0
  · simp only [if_pos hlen, rteNodeEnqueue, Node.nextNodes, List.getElem?_cons_zero, State.put]
    refine ⟨by simpa using h.tx, by simpa using h.drop, h.nic, h.freed, ?_, ?_⟩
    · simp only [Function.update_self, List.filter_append, ne_eq, reduceCtorEq, not_false_eq_true,
        Function.update_of_ne]
      refine (h.others.append_right _).trans ?_
      rw [List.append_assoc, List.append_assoc (List.filter _ (s.pending .ipv4))]
      exact List.perm_append_comm.append_left _
    · have hcounted := h.counted
      simp only [Function.update_self, List.length_append]
      omega
  · have hnone : pkts = [] := List.eq_nil_of_length_eq_zero (Nat.eq_zero_of_not_pos hlen)
    simp only [hnone, List.append_nil, List.length_nil, gt_iff_lt, lt_irrefl, if_false]
    exact h

/-- A piece moved behind the next but one. -/
lemma perm_move {α : Type*} (a b c d : List α) :
    ((a ++ b) ++ (c ++ d)).Perm (b ++ ((c ++ a) ++ d)) := by
  have hswap : (a ++ (c ++ d)) ~ ((c ++ a) ++ d) := by
    rw [List.append_assoc]
    exact List.perm_append_comm_assoc a c d
  calc (a ++ b) ++ (c ++ d)
      ~ (b ++ a) ++ (c ++ d) := List.perm_append_comm.append_right _
    _ = b ++ (a ++ (c ++ d)) := List.append_assoc _ _ _
    _ ~ b ++ ((c ++ a) ++ d) := hswap.append_left b

/-- A call of `ipv4_node`. -/
lemma Sorted.ipv4_call {s : State} (h : Sorted s) {objs rest : List Mbuf}
    (hperm : (s.pending .ipv4).Perm (objs ++ rest)) :
    Sorted (ipv4NodeProcess objs
      { s with pending := Function.update s.pending .ipv4 rest }) := by
  obtain ⟨htx, hdrop, hipv4, hprinted, hreceived, hnic, hfreed⟩ := split_ipv4Enqueue objs
    { s with
      pending := Function.update s.pending .ipv4 rest
      printed := s.printed ++ [objs.length] }
  simp only [ne_eq, reduceCtorEq, not_false_eq_true, Function.update_of_ne,
    Function.update_self] at htx hdrop hipv4
  rw [ipv4NodeProcess]
  refine ⟨?_, ?_, ?_, ?_, ?_, ?_⟩
  · rw [htx]
    intro m hm
    rcases List.mem_append.mp hm with hold | hnew
    · exact h.tx m hold
    · exact (List.mem_filter.mp hnew).2
  · rw [hdrop]
    intro m hm
    rcases List.mem_append.mp hm with hold | hnew
    · exact h.drop m hold
    · simpa using (List.mem_filter.mp hnew).2
  · rw [hnic]
    exact h.nic
  · rw [hfreed]
    exact h.freed
  · rw [hreceived, hipv4, hdrop, hfreed]
    have hsplit := hperm.filter fun m => !isIpv4 m
    rw [List.filter_append] at hsplit
    calc s.received.filter (fun m => !isIpv4 m)
        ~ (s.pending .ipv4).filter (fun m => !isIpv4 m) ++ (s.pending .drop ++ s.freed) := h.others
      _ ~ _ := hsplit.append_right _
      _ ~ _ := perm_move _ _ _ _
  · rw [hreceived, hipv4, hprinted]
    have hcounted := h.counted
    have hlen := hperm.length_eq
    rw [List.length_append] at hlen
    dsimp only
    rw [List.sum_append, List.sum_singleton]
    omega

/-- A call of `tx_node`. -/
lemma Sorted.tx_call {s : State} (h : Sorted s) {objs rest : List Mbuf}
    (hperm : (s.pending .tx).Perm (objs ++ rest)) (accepts : ℕ) :
    Sorted (txNodeProcess accepts objs
      { s with pending := Function.update s.pending .tx rest }) := by
  have hobjs : ∀ m ∈ objs, isIpv4 m = true := fun m hm =>
    h.tx m (hperm.mem_iff.mpr (List.mem_append_left _ hm))
  rw [txNodeProcess]
  refine ⟨fun m hm => ?_, by simpa using h.drop, fun m hm => ?_, h.freed, by simpa using h.others,
    by simpa using h.counted⟩
  · simp only [Function.update_self] at hm
    exact h.tx m (hperm.mem_iff.mpr (List.mem_append_right _ hm))
  · rcases List.mem_append.mp hm with hold | hnew
    · exact h.nic m hold
    · exact hobjs m (List.mem_of_mem_take hnew)

/-- A call of `drop_node`. -/
lemma Sorted.drop_call {s : State} (h : Sorted s) {objs rest : List Mbuf}
    (hperm : (s.pending .drop).Perm (objs ++ rest)) :
    Sorted (dropNodeProcess objs
      { s with pending := Function.update s.pending .drop rest }) := by
  have hobjs : ∀ m ∈ objs, isIpv4 m = false := fun m hm =>
    h.drop m (hperm.mem_iff.mpr (List.mem_append_left _ hm))
  rw [dropNodeProcess]
  refine ⟨by simpa using h.tx, fun m hm => ?_, h.nic, fun m hm => ?_, ?_, by simpa using h.counted⟩
  · simp only [Function.update_self] at hm
    exact h.drop m (hperm.mem_iff.mpr (List.mem_append_right _ hm))
  · rcases List.mem_append.mp hm with hold | hnew
    · exact h.freed m hold
    · exact hobjs m hnew
  · simp only [Function.update_self, ne_eq, reduceCtorEq, not_false_eq_true, Function.update_of_ne]
    refine h.others.trans (List.Perm.append_left _ ?_)
    calc s.pending .drop ++ s.freed
        ~ (objs ++ rest) ++ s.freed := hperm.append_right _
      _ = objs ++ (rest ++ s.freed) := List.append_assoc _ _ _
      _ ~ (rest ++ s.freed) ++ objs := List.perm_append_comm
      _ = rest ++ (s.freed ++ objs) := List.append_assoc _ _ _

/-- **Every step** keeps the invariant. -/
lemma Sorted.step {s : State} (turn : Turn) (h : Sorted s) : Sorted (step turn s) := by
  cases turn with
  | walk pkts hle =>
      rw [RxDropGraph.step]
      split
      · exact h.rx pkts
      · exact h
  | call d =>
      have hperm : (s.pending d.node).Perm (d.objs s ++ d.rest s) := by
        rw [Delivery.objs, Delivery.rest, List.take_append_drop]
        exact (d.order_perm _).symm
      rw [RxDropGraph.step, deliver]
      cases hnode : d.node with
      | rx => exact h
      | ipv4 =>
          rw [hnode] at hperm
          exact h.ipv4_call hperm
      | tx =>
          rw [hnode] at hperm
          exact h.tx_call hperm d.accepts
      | drop =>
          rw [hnode] at hperm
          exact h.drop_call hperm

lemma sorted_reached (turns : List Turn) : Sorted (reached turns) :=
  run_invariant step (fun turn _ h => h.step turn) sorted_init turns

/-- **The graph sorts.** In every run, however the walks are scheduled, whatever was received
and however many frames the device accepts: only IPv4 frames reach the device and only others
are freed; at the end of every walk all frames that are not IPv4 have been freed, each once,
and the counts printed add up to the frames received. -/
theorem graph_sorts (turns : List Turn) :
    (∀ m ∈ (reached turns).nic, isIpv4 m = true) ∧
    (∀ m ∈ (reached turns).freed, isIpv4 m = false) ∧
    ((reached turns).drained = true →
      (reached turns).freed.Perm ((reached turns).received.filter fun m => !isIpv4 m) ∧
        (reached turns).printed.sum = (reached turns).received.length) := by
  have h := sorted_reached turns
  refine ⟨h.nic, h.freed, fun hdrained => ?_⟩
  have hempty : ∀ node, (reached turns).pending node = [] := by
    intro node
    have hnone : (reached turns).inFlight = [] := List.isEmpty_iff.mp hdrained
    exact List.flatMap_eq_nil_iff.mp hnone node (mem_all node)
  have hothers := h.others
  have hcounted := h.counted
  rw [hempty, hempty, List.filter_nil, List.nil_append, List.nil_append] at hothers
  rw [hempty, List.length_nil, Nat.zero_add] at hcounted
  exact ⟨hothers.symm, hcounted.symm⟩

end DpdkStarter.RxDropGraph
