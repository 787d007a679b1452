import DpdkStarter.Library.Mailboxes
import DpdkStarter.RxDropGraph.Nodes

/-!
What becomes of the frames in the graph of `graph/rx_drop_sample/sample/main.c`.

The books of the program are the frames on their way in the walk, those the device
accepted and those that were freed. Every call of a node returns its objects to
the books, but for those `tx_node` offers to the device and the device refuses.

* `books_step`: what one step does to the books.
* `settled_iff`: the frames are settled at the end of every walk exactly when the
  device accepts all frames of every call of `tx_node`.
-/

namespace DpdkStarter.RxDropGraph

open Machine Mailboxes
open scoped List

/-! ### Ownership -/

/-- The frames the program owns or has given back: those on their way in the walk,
those the device accepted and those that were freed. -/
def State.books (s : State) : List Mbuf := s.inFlight ++ s.nic ++ s.freed

/-- Every frame received is on its way, accepted by the device or freed, once. -/
def Conserved (s : State) : Prop := s.received.Perm s.books

/-- The turn is a call of `tx_node` of which the device refuses a frame. -/
def Refuses : Turn → State → Prop
  | .walk _ _, _ => False
  | .call d, s => d.node = .tx ∧ d.accepts < (d.objs s).length

/-- The frames a call of `tx_node` loses. -/
def refused : Turn → State → List Mbuf
  | .walk _ _, _ => []
  | .call d, s => if d.node = .tx then (d.objs s).drop d.accepts else []

variable {s : State} {turn : Turn}

lemma refused_eq_nil : refused turn s = [] ↔ ¬Refuses turn s := by
  cases turn with
  | walk pkts hle => simp [refused, Refuses]
  | call d => simp [refused, Refuses, List.drop_eq_nil_iff]

lemma mem_all (node : Node) : node ∈ Node.all := by cases node <;> decide

/-- Objects enqueued to a node join the books. -/
lemma books_put (node : Node) (objs : List Mbuf) (s : State) :
    (s.put node objs).books.Perm (objs ++ s.books) := by
  have hput : (Node.all.flatMap (Function.update s.pending node (s.pending node ++ objs))).Perm
      (objs ++ Node.all.flatMap s.pending) := flatMap_put_perm (by decide) (mem_all node) objs
  simp only [State.books, State.inFlight, State.put, ← List.append_assoc]
  exact (hput.append_right s.nic).append_right s.freed

/-- `ipv4_node_process` enqueues each of its objects to one node. -/
lemma books_foldl_ipv4Enqueue (objs : List Mbuf) (s : State) :
    (objs.foldl ipv4Enqueue s).books.Perm (objs ++ s.books) := by
  induction objs generalizing s with
  | nil => exact List.Perm.refl _
  | cons m objs ih =>
      have hone : (ipv4Enqueue s m).books.Perm (m :: s.books) := by
        rw [ipv4Enqueue]
        split
        · exact books_put .tx [m] s
        · exact books_put .drop [m] s
      rw [List.foldl_cons]
      calc (objs.foldl ipv4Enqueue (ipv4Enqueue s m)).books
          ~ objs ++ (ipv4Enqueue s m).books := ih _
        _ ~ objs ++ m :: s.books := hone.append_left objs
        _ ~ m :: objs ++ s.books := List.perm_middle

/-- Objects taken from a node leave the books. -/
lemma books_take {node : Node} {objs rest : List Mbuf}
    (hperm : (s.pending node).Perm (objs ++ rest)) :
    (objs ++ { s with pending := Function.update s.pending node rest }.books).Perm s.books := by
  have htake : (objs ++ Node.all.flatMap (Function.update s.pending node rest)).Perm
      (Node.all.flatMap s.pending) := flatMap_take_perm (by decide) (mem_all node) hperm
  simp only [State.books, State.inFlight, ← List.append_assoc]
  exact (htake.append_right s.nic).append_right s.freed

/-- A process function returns its objects to the books, but for those that are
refused. -/
lemma books_nodeProcess {node : Node} (hnode : node ≠ .rx) (accepts : ℕ) (objs : List Mbuf)
    (s : State) :
    ((nodeProcess node accepts objs s).books ++
      if node = .tx then objs.drop accepts else []).Perm (objs ++ s.books) := by
  classical
  cases node with
  | rx => exact absurd rfl hnode
  | ipv4 =>
      rw [if_neg (by decide), List.append_nil]
      exact books_foldl_ipv4Enqueue objs { s with printed := s.printed ++ [objs.length] }
  | tx =>
      refine List.perm_iff_count.mpr fun m => ?_
      have hcut : (objs.take accepts).count m + (objs.drop accepts).count m = objs.count m := by
        rw [← List.count_append, List.take_append_drop]
      simp only [nodeProcess, txNodeProcess, State.books, State.inFlight, if_true,
        List.count_append]
      omega
  | drop =>
      rw [if_neg (by decide), List.append_nil]
      refine List.perm_iff_count.mpr fun m => ?_
      simp only [nodeProcess, dropNodeProcess, State.books, State.inFlight, List.count_append]
      omega

/-- A call of a node keeps the books, but for what is refused. -/
lemma books_deliver (d : Delivery) (s : State) :
    ((deliver d s).books ++ refused (.call d) s).Perm s.books := by
  have hperm : (s.pending d.node).Perm (d.objs s ++ d.rest s) := by
    rw [Delivery.objs, Delivery.rest, List.take_append_drop]
    exact (d.order_perm _).symm
  rw [deliver, refused]
  by_cases hnode : d.node = .rx
  · rw [if_pos hnode, if_neg (by rw [hnode]; decide), List.append_nil]
  · rw [if_neg hnode]
    exact (books_nodeProcess hnode d.accepts (d.objs s) _).trans (books_take hperm)

/-- No call of a node receives a frame. -/
lemma received_deliver (d : Delivery) (s : State) : (deliver d s).received = s.received := by
  have hput : ∀ node edge objs (t : State),
      (rteNodeEnqueue node edge objs t).received = t.received := by
    intro node edge objs t
    rw [rteNodeEnqueue]
    split <;> rfl
  have hipv4 : ∀ (objs : List Mbuf) (t : State),
      (objs.foldl ipv4Enqueue t).received = t.received := by
    intro objs
    induction objs with
    | nil => exact fun _ => rfl
    | cons m objs ih =>
        intro t
        rw [List.foldl_cons, ih, ipv4Enqueue]
        split <;> exact hput _ _ _ _
  rw [deliver]
  split
  · rfl
  · cases d.node with
    | rx => rfl
    | ipv4 => exact hipv4 _ _
    | tx => rfl
    | drop => rfl

/-- The start of a walk enters the burst into the books. -/
lemma books_rxNodeProcess (pkts : List Mbuf) (s : State) :
    (rxNodeProcess pkts s).books.Perm (pkts ++ s.books) ∧
      (rxNodeProcess pkts s).received = s.received ++ pkts := by
  rw [rxNodeProcess]
  by_cases hlen : pkts.length > 0
  · simp only [if_pos hlen]
    exact ⟨books_put .ipv4 pkts { s with received := s.received ++ pkts }, rfl⟩
  · simp only [if_neg hlen]
    rw [List.eq_nil_of_length_eq_zero (Nat.eq_zero_of_not_pos hlen)]
    exact ⟨List.Perm.refl _, trivial⟩

/-- **One step** enters into the books what it receives and loses what is refused. -/
lemma books_step (turn : Turn) (s : State) :
    ∃ pkts, (step turn s).received = s.received ++ pkts ∧
      ((step turn s).books ++ refused turn s).Perm (pkts ++ s.books) := by
  cases turn with
  | walk pkts hle =>
      rw [step]
      split
      · obtain ⟨hbooks, hreceived⟩ := books_rxNodeProcess pkts s
        exact ⟨pkts, hreceived, by rwa [refused, List.append_nil]⟩
      · exact ⟨[], by simp, by simp [refused]⟩
  | call d =>
      exact ⟨[], by simp [step, received_deliver], by simpa [step] using books_deliver d s⟩

/-- The frames are conserved at the end of a run exactly when no call of `tx_node`
in it is refused a frame. -/
lemma conserved_reached_iff (turns : List Turn) :
    Conserved (reached turns) ↔
      StepsMeet step (fun turn s => ¬Refuses turn s) turns State.init := by
  constructor
  · intro hend
    refine stepsMeet_of_final (P := fun s => s.books.length ≤ s.received.length)
      (B := fun s => s.books.length < s.received.length) ?_ ?_ ?_ (Nat.zero_le 0)
      (by rw [hend.length_eq]; exact lt_irrefl _)
    all_goals
      intro turn s
      obtain ⟨pkts, hreceived, hbooks⟩ := books_step turn s
      have hlen := hbooks.length_eq
      rw [List.length_append, List.length_append] at hlen
      rw [hreceived, List.length_append]
    · intro hle
      omega
    · intro _ hlt
      omega
    · intro hle hrefuses
      have hne : refused turn s ≠ [] := fun hnil => hrefuses (refused_eq_nil.mp hnil)
      have hpos := List.length_pos_of_ne_nil hne
      omega
  · intro hmeet
    refine run_invariant_of_stepsMeet (P := Conserved) ?_ hmeet (List.Perm.refl [])
    intro turn s hturn hs
    obtain ⟨pkts, hreceived, hbooks⟩ := books_step turn s
    rw [refused_eq_nil.mpr hturn, List.append_nil] at hbooks
    rw [Conserved, hreceived]
    calc s.received ++ pkts
        ~ pkts ++ s.received := List.perm_append_comm
      _ ~ pkts ++ s.books := hs.append_left pkts
      _ ~ (step turn s).books := hbooks.symm

/-- Every frame received was accepted by the device or freed, once. -/
def Settled (s : State) : Prop := s.received.Perm (s.nic ++ s.freed)

/-- When a walk is over, nothing is on its way. -/
lemma settled_iff_conserved (hdrained : s.drained = true) : Settled s ↔ Conserved s := by
  rw [Conserved, State.books, List.isEmpty_iff.mp hdrained, List.nil_append]
  rfl

/-- **Packet ownership in the graph.** Every frame is settled whenever a walk is
over exactly when no call of `tx_node` until then is refused a frame. -/
lemma settled_iff (turns : List Turn) :
    (∀ pre, pre <+: turns → (reached pre).drained = true → Settled (reached pre))
      ↔ ∀ pre, pre <+: turns → (reached pre).drained = true →
          StepsMeet step (fun turn s => ¬Refuses turn s) pre State.init := by
  refine forall_congr' fun pre => forall_congr' fun _ => forall_congr' fun hdrained => ?_
  exact (settled_iff_conserved hdrained).trans (conserved_reached_iff pre)

end DpdkStarter.RxDropGraph
