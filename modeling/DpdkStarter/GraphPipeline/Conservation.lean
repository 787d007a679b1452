import DpdkStarter.Library.Mailboxes
import DpdkStarter.GraphPipeline.Nodes

/-!
What becomes of the frames in the packet graph.

A walk starts with at most `BURST` frames and the next one waits for its end, so
`l2_node` never has more than `BURST` objects to be called with: this is the
bound its three arrays rely on. The invariant is kept with the frames a process
function has in its hands named apart, so that a call is the taking of some
objects and then the enqueues, frees and transmissions of the node, one by one.

* `l2Split_eq`: the split of `l2_node_process` into its three arrays.
* `Inv`, `inv_reached`: where every frame is, at every step of every walk.
* `pipeline_conserves`: the frames and the arrays, in every run of walks.
* `walk_ends`: from every state the walk can be brought to its end.
-/

namespace DpdkStarter.GraphPipeline

open scoped List

/-- The ethertype is that of IPv4 or of IPv6. -/
def isIp (m : Mbuf) : Bool :=
  etherType.eval m.data = etherTypeIpv4 ∨ etherType.eval m.data = etherTypeIpv6

/-- The node a frame goes to from `l2_node`. -/
def l2Next (m : Mbuf) : Node :=
  match l2Class m with
  | .ipv4 => .ipv4
  | .ipv6 => .ipv6
  | .drop => .drop

lemma l2Next_cases (m : Mbuf) : l2Next m = .ipv4 ∨ l2Next m = .ipv6 ∨ l2Next m = .drop := by
  rw [l2Next]
  cases l2Class m <;> simp

/-- A frame is dropped when it is not IP. -/
lemma l2Next_eq_drop {m : Mbuf} : l2Next m = .drop ↔ isIp m = false := by
  unfold l2Next l2Class isIp
  dsimp only
  split_ifs with h4 h6
  · simp [h4]
  · simp [h6]
  · simp [h4, h6]

/-- What goes to one of the IP nodes is IP. -/
lemma isIp_of_l2Next {m : Mbuf} (h : l2Next m = .ipv4 ∨ l2Next m = .ipv6) : isIp m = true := by
  by_contra hip
  have hdrop : l2Next m = .drop := l2Next_eq_drop.mpr (by simpa using hip)
  rw [hdrop] at h
  simp at h

/-- The frames that may be enqueued to a node. -/
def admits : Node → Mbuf → Prop
  | .rx, _ => False
  | .l2, _ => True
  | .ipv4, m => l2Next m = .ipv4
  | .ipv6, m => l2Next m = .ipv6
  | .tx, m => isIp m = true
  | .drop, m => isIp m = false

/-! ### The split of `l2_node_process` -/

/-- With room in the arrays the loop stores each object in that of its class. -/
lemma foldlM_store (objs : List Mbuf) {a : L2Arrays}
    (h4 : a.ipv4.items.length + objs.length ≤ burst)
    (h6 : a.ipv6.items.length + objs.length ≤ burst)
    (hd : a.drop.items.length + objs.length ≤ burst) :
    ∃ a', objs.foldlM L2Arrays.store a = some a' ∧
      a'.ipv4.items = a.ipv4.items ++ objs.filter (l2Next · = .ipv4) ∧
      a'.ipv6.items = a.ipv6.items ++ objs.filter (l2Next · = .ipv6) ∧
      a'.drop.items = a.drop.items ++ objs.filter (l2Next · = .drop) := by
  induction objs generalizing a with
  | nil => exact ⟨a, rfl, by simp, by simp, by simp⟩
  | cons m objs ih =>
      simp only [List.length_cons] at h4 h6 hd
      rw [List.foldlM_cons]
      cases hclass : l2Class m with
      | ipv4 =>
          have hnext : l2Next m = .ipv4 := by simp [l2Next, hclass]
          obtain ⟨q, hq, hitems⟩ := BoundedFifo.exists_enqueue (q := a.ipv4) (by omega) m
          obtain ⟨a', ha', hr4, hr6, hrd⟩ := ih (a := { a with ipv4 := q })
            (by simp [hitems]; omega) (by dsimp only; omega) (by dsimp only; omega)
          refine ⟨a', by simpa [L2Arrays.store, hclass, hq] using ha', ?_, ?_, ?_⟩
          · simp [hr4, hitems, hnext]
          · simp [hr6, hnext]
          · simp [hrd, hnext]
      | ipv6 =>
          have hnext : l2Next m = .ipv6 := by simp [l2Next, hclass]
          obtain ⟨q, hq, hitems⟩ := BoundedFifo.exists_enqueue (q := a.ipv6) (by omega) m
          obtain ⟨a', ha', hr4, hr6, hrd⟩ := ih (a := { a with ipv6 := q })
            (by dsimp only; omega) (by simp [hitems]; omega) (by dsimp only; omega)
          refine ⟨a', by simpa [L2Arrays.store, hclass, hq] using ha', ?_, ?_, ?_⟩
          · simp [hr4, hnext]
          · simp [hr6, hitems, hnext]
          · simp [hrd, hnext]
      | drop =>
          have hnext : l2Next m = .drop := by simp [l2Next, hclass]
          obtain ⟨q, hq, hitems⟩ := BoundedFifo.exists_enqueue (q := a.drop) (by omega) m
          obtain ⟨a', ha', hr4, hr6, hrd⟩ := ih (a := { a with drop := q })
            (by dsimp only; omega) (by dsimp only; omega) (by simp [hitems]; omega)
          refine ⟨a', by simpa [L2Arrays.store, hclass, hq] using ha', ?_, ?_, ?_⟩
          · simp [hr4, hnext]
          · simp [hr6, hnext]
          · simp [hrd, hitems, hnext]

/-- At most `BURST` objects fit into the arrays, each class in order. -/
lemma l2Split_eq {objs : List Mbuf} (h : objs.length ≤ burst) :
    ∃ a, l2Split objs = some a ∧ a.ipv4.items = objs.filter (l2Next · = .ipv4) ∧
      a.ipv6.items = objs.filter (l2Next · = .ipv6) ∧
      a.drop.items = objs.filter (l2Next · = .drop) := by
  rw [l2Split]
  simpa using foldlM_store objs (a := ⟨.empty, .empty, .empty⟩) (by simpa using h)
    (by simpa using h) (by simpa using h)

/-- Append objects to those of a node. -/
def State.put (node : Node) (objs : List Mbuf) (s : State) : State :=
  { s with pending := Function.update s.pending node (s.pending node ++ objs) }

/-- An enqueue of no objects may be left out. -/
lemma l2Enqueue_eq (edge : ℕ) (node : Node) (h : Node.l2.nextNodes[edge]? = some node)
    (objs : List Mbuf) (s : State) : l2Enqueue edge objs s = s.put node objs := by
  rw [l2Enqueue, rteNodeEnqueue]
  rw [h]
  split
  · rfl
  · rename_i hlen
    rw [List.eq_nil_of_length_eq_zero (Nat.eq_zero_of_not_pos hlen)]
    simp [State.put]

/-- `l2_node_process` of at most `BURST` objects enqueues them by class. -/
lemma l2NodeProcess_eq {objs : List Mbuf} (h : objs.length ≤ burst) (s : State) :
    l2NodeProcess objs s =
      ((s.put .ipv4 (objs.filter (l2Next · = .ipv4))).put .ipv6
        (objs.filter (l2Next · = .ipv6))).put .drop (objs.filter (l2Next · = .drop)) := by
  obtain ⟨a, ha, h4, h6, hd⟩ := l2Split_eq h
  rw [l2NodeProcess]
  rw [ha]
  dsimp only
  rw [l2Enqueue_eq 2 .drop rfl, l2Enqueue_eq 1 .ipv6 rfl, l2Enqueue_eq 0 .ipv4 rfl, h4, h6, hd]

/-- The classes take up all the objects. -/
lemma perm_classes (objs : List Mbuf) :
    objs.Perm (objs.filter (l2Next · = .ipv4) ++ (objs.filter (l2Next · = .ipv6) ++
      objs.filter (l2Next · = .drop))) := by
  induction objs with
  | nil => exact List.Perm.refl _
  | cons m objs ih =>
      rcases l2Next_cases m with hnext | hnext | hnext
      · simpa [hnext] using ih
      · refine (ih.cons m).trans ?_
        simpa [hnext] using List.perm_middle.symm
      · refine (ih.cons m).trans ?_
        simpa [hnext] using List.perm_middle.symm.trans (List.perm_middle.symm.append_left _)

/-! ### The invariant -/

/-- **Where the frames are**: those received are in the hands of a process
function, enqueued to a node, accepted, or freed; each node has only frames of
its kind, and `l2_node` at most `BURST`. -/
structure Inv (hand : List Mbuf) (s : State) : Prop where
  fault : s.fault = false
  admitted : ∀ node, ∀ m ∈ s.pending node, admits node m
  l2_le : (s.pending .l2).length ≤ burst
  nic : ∀ m ∈ s.nic, isIp m = true
  txFreed : ∀ m ∈ s.txFreed, isIp m = true
  dropFreed : ∀ m ∈ s.dropFreed, isIp m = false
  conserved : s.received.Perm (hand ++ s.inFlight ++ s.nic ++ s.txFreed ++ s.dropFreed)

lemma inv_init : Inv [] State.init := by
  refine ⟨rfl, ?_, ?_, ?_, ?_, ?_, ?_⟩ <;> simp [State.init, State.inFlight, Node.all]

lemma mem_all (node : Node) : node ∈ Node.all := by cases node <;> decide

/-- Objects taken from a node are no longer enqueued. -/
lemma inFlight_take {s : State} {node : Node} {objs rest : List Mbuf}
    (hperm : (s.pending node).Perm (objs ++ rest)) :
    (objs ++ { s with pending := Function.update s.pending node rest }.inFlight).Perm s.inFlight :=
  Mailboxes.flatMap_take_perm (by decide) (mem_all node) hperm

/-- Objects enqueued to a node. -/
lemma inFlight_put (node : Node) (objs : List Mbuf) (s : State) :
    (s.put node objs).inFlight.Perm (objs ++ s.inFlight) :=
  Mailboxes.flatMap_put_perm (by decide) (mem_all node) objs

/-- Some objects of a node are taken into the hands. -/
lemma Inv.take {s : State} (h : Inv [] s) {node : Node} {objs rest : List Mbuf}
    (hperm : (s.pending node).Perm (objs ++ rest)) :
    Inv objs { s with pending := Function.update s.pending node rest } := by
  obtain ⟨hfault, hadm, hl2, hnic, htx, hdrop, hcons⟩ := h
  refine ⟨hfault, ?_, ?_, hnic, htx, hdrop, hcons.trans ?_⟩
  · intro n m hm
    change m ∈ Function.update s.pending node rest n at hm
    by_cases hn : n = node
    · subst hn
      rw [Function.update_self] at hm
      exact hadm n m (hperm.mem_iff.mpr (List.mem_append_right _ hm))
    · rw [Function.update_of_ne hn] at hm
      exact hadm n m hm
  · by_cases hn : Node.l2 = node
    · subst hn
      have hlen := hperm.length_eq
      rw [List.length_append] at hlen
      simp only [Function.update_self]
      omega
    · simpa [Function.update_of_ne hn] using hl2
  · rw [List.nil_append]
    exact (((inFlight_take hperm).symm.append_right _).append_right _).append_right _

/-- Objects in the hands are enqueued to a node. -/
lemma Inv.put {s : State} {objs hand : List Mbuf} (h : Inv (objs ++ hand) s) (node : Node)
    (hadmits : ∀ m ∈ objs, admits node m)
    (hroom : node = .l2 → (s.pending .l2).length + objs.length ≤ burst) :
    Inv hand (s.put node objs) := by
  obtain ⟨hfault, hadm, hl2, hnic, htx, hdrop, hcons⟩ := h
  refine ⟨hfault, ?_, ?_, hnic, htx, hdrop, hcons.trans ?_⟩
  · intro n m hm
    by_cases hn : n = node
    · subst hn
      simp only [State.put, Function.update_self, List.mem_append] at hm
      exact hm.elim (hadm n m) (hadmits m)
    · simp only [State.put, Function.update_of_ne hn] at hm
      exact hadm n m hm
  · by_cases hn : Node.l2 = node
    · subst hn
      simpa [State.put] using hroom rfl
    · simpa [State.put, Function.update_of_ne hn] using hl2
  · have hmove : (objs ++ hand ++ s.inFlight).Perm (hand ++ (s.put node objs).inFlight) := by
      rw [List.append_assoc]
      calc objs ++ (hand ++ s.inFlight)
          ~ hand ++ (objs ++ s.inFlight) := List.perm_append_comm_assoc _ _ _
        _ ~ hand ++ (s.put node objs).inFlight := (inFlight_put node objs s).symm.append_left hand
    exact ((hmove.append_right _).append_right _).append_right _

/-! ### The nodes -/

/-- The hands may be rearranged. -/
lemma Inv.perm {s : State} {hand hand' : List Mbuf} (h : Inv hand s) (hperm : hand.Perm hand') :
    Inv hand' s := by
  refine { h with conserved := h.conserved.trans ?_ }
  exact (((hperm.append_right _).append_right _).append_right _).append_right _

lemma Inv.append_nil {s : State} {hand : List Mbuf} (h : Inv hand s) : Inv (hand ++ []) s := by
  rwa [List.append_nil]

/-- `l2_node_process` of at most `BURST` objects. -/
lemma inv_l2NodeProcess {s : State} {objs : List Mbuf} (h : Inv objs s)
    (hlen : objs.length ≤ burst) : Inv [] (l2NodeProcess objs s) := by
  rw [l2NodeProcess_eq hlen]
  have h4 := (h.perm (perm_classes objs)).put .ipv4
    (fun m hm => by simpa [admits] using (List.mem_filter.mp hm).2) (by simp)
  have h6 := h4.put .ipv6
    (fun m hm => by simpa [admits] using (List.mem_filter.mp hm).2) (by simp)
  refine h6.append_nil.put .drop ?_ (by simp)
  intro m hm
  exact l2Next_eq_drop.mp (by simpa using (List.mem_filter.mp hm).2)

/-- `tx_node_process`: what the device accepts and what is freed. -/
lemma inv_txNodeProcess {s : State} {objs : List Mbuf} (h : Inv objs s)
    (hip : ∀ m ∈ objs, isIp m = true) (accepts : ℕ) : Inv [] (txNodeProcess accepts objs s) := by
  classical
  obtain ⟨hfault, hadm, hl2, hnic, htx, hdrop, hcons⟩ := h
  refine ⟨hfault, hadm, hl2, ?_, ?_, hdrop, List.perm_iff_count.mpr ?_⟩
  · intro m hm
    rcases List.mem_append.mp hm with hold | hnew
    · exact hnic m hold
    · exact hip m (List.mem_of_mem_take hnew)
  · intro m hm
    rcases List.mem_append.mp hm with hold | hnew
    · exact htx m hold
    · exact hip m (List.mem_of_mem_drop hnew)
  · intro m
    have hall := List.perm_iff_count.mp hcons m
    have hcut : (objs.take accepts).count m + (objs.drop accepts).count m = objs.count m := by
      rw [← List.count_append, List.take_append_drop]
    simp only [txNodeProcess, State.inFlight, List.count_append, List.count_nil] at hall ⊢
    omega

/-- `drop_node_process`: everything is freed. -/
lemma inv_dropNodeProcess {s : State} {objs : List Mbuf} (h : Inv objs s)
    (hip : ∀ m ∈ objs, isIp m = false) : Inv [] (dropNodeProcess objs s) := by
  classical
  obtain ⟨hfault, hadm, hl2, hnic, htx, hdrop, hcons⟩ := h
  refine ⟨hfault, hadm, hl2, hnic, htx, ?_, List.perm_iff_count.mpr ?_⟩
  · intro m hm
    exact (List.mem_append.mp hm).elim (hdrop m) (hip m)
  · intro m
    have hall := List.perm_iff_count.mp hcons m
    simp only [dropNodeProcess, State.inFlight, List.count_append, List.count_nil] at hall ⊢
    omega

/-- A call of a node keeps the invariant. -/
lemma inv_deliver (d : Delivery) {s : State} (h : Inv [] s) : Inv [] (deliver d s) := by
  have hperm : (s.pending d.node).Perm (d.objs s ++ d.rest s) := by
    rw [Delivery.objs, Delivery.rest, List.take_append_drop]
    exact (d.order_perm _).symm
  have htaken := h.take hperm
  have hadm : ∀ m ∈ d.objs s, admits d.node m := fun m hm =>
    h.admitted d.node m (hperm.mem_iff.mpr (List.mem_append_left _ hm))
  have hlen := hperm.length_eq
  rw [List.length_append] at hlen
  rw [deliver]
  generalize d.objs s = objs at htaken hadm hlen
  cases hnode : d.node with
  | rx =>
      rw [hnode] at htaken hadm
      have hnil : objs = [] := List.eq_nil_iff_forall_not_mem.mpr fun m hm => hadm m hm
      rw [hnil] at htaken
      exact htaken
  | l2 =>
      rw [hnode] at htaken hlen
      have hl2 := h.l2_le
      exact inv_l2NodeProcess htaken (by omega)
  | ipv4 =>
      rw [hnode] at htaken hadm
      have hip : ∀ m ∈ objs, isIp m = true := fun m hm => isIp_of_l2Next (.inl (hadm m hm))
      exact htaken.append_nil.put .tx hip (by simp)
  | ipv6 =>
      rw [hnode] at htaken hadm
      have hip : ∀ m ∈ objs, isIp m = true := fun m hm => isIp_of_l2Next (.inr (hadm m hm))
      exact htaken.append_nil.put .tx hip (by simp)
  | tx =>
      rw [hnode] at htaken hadm
      exact inv_txNodeProcess htaken hadm d.accepts
  | drop =>
      rw [hnode] at htaken hadm
      exact inv_dropNodeProcess htaken hadm

/-- The start of a walk keeps the invariant: nothing waits at `l2_node` then. -/
lemma inv_rxNodeProcess {pkts : List Mbuf} (hlen : pkts.length ≤ burst) {s : State}
    (hdrained : s.drained = true) (h : Inv [] s) : Inv [] (rxNodeProcess pkts s) := by
  have hnone : s.pending .l2 = [] := by
    have hall := List.isEmpty_iff.mp hdrained
    exact List.flatMap_eq_nil_iff.mp hall .l2 (by decide)
  have hrx : Inv (pkts ++ []) { s with received := s.received ++ pkts } := by
    refine { h with conserved := ?_ }
    refine (h.conserved.append_right pkts).trans ?_
    simp only [List.nil_append, List.append_nil]
    refine List.perm_append_comm.trans ?_
    simp only [State.inFlight, List.append_assoc]
    exact List.Perm.refl _
  unfold rxNodeProcess
  dsimp only
  split
  · exact hrx.put .l2 (fun m hm => trivial) fun _ => by simpa [hnone] using hlen
  · rename_i hzero
    rw [List.eq_nil_of_length_eq_zero (Nat.eq_zero_of_not_pos hzero)] at hrx ⊢
    exact hrx

/-- Every step keeps the invariant. -/
lemma step_inv (t : Turn) (s : State) (h : Inv [] s) : Inv [] (step t s) := by
  cases t with
  | walk pkts hlen =>
      simp only [step]
      split
      · rename_i hdrained
        exact inv_rxNodeProcess hlen hdrained h
      · exact h
  | call d => exact inv_deliver d h

/-- The invariant holds in every reachable state. -/
theorem inv_reached (turns : List Turn) : Inv [] (reached turns) :=
  Machine.run_invariant step step_inv inv_init turns

/-! ### Conservation -/

/-- **The frames in the graph.** In every run of walks no array is overrun; the
frames received are enqueued somewhere, accepted by the device or freed, each
once; when a walk is over the IP frames were accepted or freed by `tx_node` and
all others freed by `drop_node`; only IP frames were accepted; and whatever
objects `l2_node` is called with, each class of them goes to its node in order. -/
theorem pipeline_conserves (turns : List Turn) :
    (reached turns).fault = false ∧
    (reached turns).received.Perm ((reached turns).inFlight ++ (reached turns).nic ++
      (reached turns).txFreed ++ (reached turns).dropFreed) ∧
    ((reached turns).drained = true →
      ((reached turns).received.filter isIp).Perm
        ((reached turns).nic ++ (reached turns).txFreed) ∧
      ((reached turns).received.filter fun m => !isIp m).Perm (reached turns).dropFreed) ∧
    (∀ m ∈ (reached turns).nic, isIp m = true) ∧
    ∀ objs rest, ((reached turns).pending .l2).Perm (objs ++ rest) → ∀ t node,
      (l2NodeProcess objs t).fault = t.fault ∧
      (l2NodeProcess objs t).pending node = t.pending node ++ objs.filter (l2Next · = node) := by
  have hinv := inv_reached turns
  refine ⟨hinv.fault, hinv.conserved, ?_, hinv.nic, ?_⟩
  · intro hdrained
    have hall := hinv.conserved
    rw [List.isEmpty_iff.mp hdrained] at hall
    simp only [List.nil_append] at hall
    have hnic : ∀ m ∈ (reached turns).nic ++ (reached turns).txFreed, isIp m = true :=
      fun m hm => (List.mem_append.mp hm).elim (hinv.nic m) (hinv.txFreed m)
    have hdrop : ∀ m ∈ (reached turns).dropFreed, (!isIp m) = true := fun m hm => by
      rw [hinv.dropFreed m hm]
      rfl
    constructor
    · refine (hall.filter isIp).trans (List.Perm.of_eq ?_)
      rw [List.filter_append, List.filter_eq_self.mpr hnic,
        List.filter_eq_nil_iff.mpr fun m hm => by simpa using hdrop m hm, List.append_nil]
    · refine (hall.filter fun m => !isIp m).trans (List.Perm.of_eq ?_)
      rw [List.filter_append, List.filter_eq_self.mpr hdrop,
        List.filter_eq_nil_iff.mpr fun m hm => by simpa using hnic m hm, List.nil_append]
  · intro objs rest hperm t node
    have hlen := hperm.length_eq
    rw [List.length_append] at hlen
    have hl2 := hinv.l2_le
    rw [l2NodeProcess_eq (by omega)]
    refine ⟨rfl, ?_⟩
    have hother : ∀ n : Node, n = .rx ∨ n = .l2 ∨ n = .tx → objs.filter (l2Next · = n) = [] := by
      intro n hn
      refine List.filter_eq_nil_iff.mpr fun m _ => ?_
      rcases l2Next_cases m with hnext | hnext | hnext <;> rcases hn with rfl | rfl | rfl <;>
        simp [hnext]
    cases node <;> simp [State.put, Function.update, hother]

/-! ### The end of a walk -/

/-- A call of a node with all its objects. -/
def Delivery.whole (node : Node) (s : State) : Delivery :=
  ⟨node, id, fun _ => List.Perm.refl _, (s.pending node).length, 0⟩

/-- A node called with all its objects has none left, and only its successors get
new ones. -/
lemma pending_deliver_whole {s : State} (h : Inv [] s) (node : Node) {n : Node}
    (hn : n ∉ node.nextNodes) :
    (deliver (.whole node s) s).pending n = if n = node then [] else s.pending n := by
  have hobjs : (Delivery.whole node s).objs s = s.pending node := by
    simp [Delivery.objs, Delivery.whole]
  have hrest : (Delivery.whole node s).rest s = [] := by
    simp [Delivery.rest, Delivery.whole]
  rw [deliver]
  rw [hobjs, hrest]
  cases node with
  | l2 =>
      simp only [Node.nextNodes, List.mem_cons, List.not_mem_nil, or_false, not_or] at hn
      change (l2NodeProcess (s.pending .l2) _).pending n = _
      rw [l2NodeProcess_eq h.l2_le]
      simp [State.put, Function.update, hn, Delivery.whole]
  | ipv4 | ipv6 =>
      simp only [Node.nextNodes, List.mem_singleton] at hn
      simp [nodeProcess, ipv4NodeProcess, ipv6NodeProcess, rteNodeEnqueue, Node.nextNodes,
        Delivery.whole, Function.update, hn]
  | rx | tx | drop =>
      simp [nodeProcess, txNodeProcess, dropNodeProcess, Delivery.whole, Function.update]

/-- Some call of a node empties it. -/
lemma exists_emptying_call {s : State} (h : Inv [] s) (node : Node) :
    ∃ d : Delivery, Inv [] (deliver d s) ∧ ∀ n, n ∉ node.nextNodes →
      (deliver d s).pending n = if n = node then [] else s.pending n :=
  ⟨.whole node s, inv_deliver _ h, fun _ hn => pending_deliver_whole h node hn⟩

/-- **A walk can end.** From every reachable state five calls deliver all that is
enqueued, so that the next walk can start. -/
theorem walk_ends (turns : List Turn) :
    ∃ ds : List Delivery, ds.length = 5 ∧
      (reached (turns ++ ds.map .call)).drained = true := by
  obtain ⟨d1, h1, hp1⟩ := exists_emptying_call (inv_reached turns) .l2
  obtain ⟨d2, h2, hp2⟩ := exists_emptying_call h1 .ipv4
  obtain ⟨d3, h3, hp3⟩ := exists_emptying_call h2 .ipv6
  obtain ⟨d4, h4, hp4⟩ := exists_emptying_call h3 .tx
  obtain ⟨d5, h5, hp5⟩ := exists_emptying_call h4 .drop
  refine ⟨[d1, d2, d3, d4, d5], rfl, ?_⟩
  rw [reached, Machine.run_append]
  change State.drained (deliver d5 (deliver d4 (deliver d3 (deliver d2 (deliver d1 _))))) = true
  -- each node is emptied in its turn, and no later call enqueues to it
  have hrx := List.eq_nil_iff_forall_not_mem.mpr fun m hm => h5.admitted .rx m hm
  have hl2 := (hp5 .l2 (by decide)).trans <| (hp4 .l2 (by decide)).trans <|
    (hp3 .l2 (by decide)).trans <| (hp2 .l2 (by decide)).trans (hp1 .l2 (by decide))
  have hv4 := (hp5 .ipv4 (by decide)).trans <| (hp4 .ipv4 (by decide)).trans <|
    (hp3 .ipv4 (by decide)).trans (hp2 .ipv4 (by decide))
  have hv6 := (hp5 .ipv6 (by decide)).trans <| (hp4 .ipv6 (by decide)).trans
    (hp3 .ipv6 (by decide))
  have htx := (hp5 .tx (by decide)).trans (hp4 .tx (by decide))
  have hdrop := hp5 .drop (by decide)
  simp only [if_true] at hl2 hv4 hv6 htx hdrop
  simp [State.drained, State.inFlight, Node.all, hrx, hl2, hv4, hv6, htx, hdrop]

end DpdkStarter.GraphPipeline
