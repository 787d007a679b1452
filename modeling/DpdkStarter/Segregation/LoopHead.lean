import DpdkStarter.Library.Ledger
import DpdkStarter.Segregation.MainLoop

/-!
The main loop of `control_data_segregation/main.c` at its head.

A burst is no longer than what one drain takes, so each drain empties its ring
and every iteration starts with both rings empty. From this follows all that
happens in an iteration: no enqueue fails, and the two calls of
`rte_eth_tx_burst` offer the control frames and the data frames of the burst.
What the device does not accept of them is in no ring and in no array any more.

* `Iterated`, `iterated`: one iteration from empty rings.
* `AtHead`, `atHead_reached`: what holds at every loop head.
* `loop_head`: the rings, the counters and the calls of the device in every run.
* `conserved_iff`: the frames are conserved in a run if and only if the device
  accepts in each drain all that it is offered.
* `tx_refusal_loses_frame`: a run in which a frame is lost.
-/

namespace DpdkStarter.Segregation

open scoped List

/-- The control frames of the burst, in arrival order. -/
def Input.controls (inp : Input) : List Mbuf := inp.burst.filter isControl

/-- The data frames of the burst, in arrival order. -/
def Input.data (inp : Input) : List Mbuf := inp.burst.filter fun m => !isControl m

/-- The transmission of a drain: none of an empty ring. -/
def txCalls (out : List Mbuf) : List Call := if out.length > 0 then [.tx out] else []

/-- The calls of the device in one iteration. -/
def Input.calls (inp : Input) : List Call :=
  .rx inp.burst :: (txCalls inp.controls ++ txCalls inp.data)

/-- The frames the device accepts in one iteration. -/
def Input.accepted (inp : Input) : List Mbuf :=
  inp.controls.take inp.acceptsControl ++ inp.data.take inp.acceptsData

/-- The frames offered in one iteration and not accepted. -/
def Input.refused (inp : Input) : List Mbuf :=
  inp.controls.drop inp.acceptsControl ++ inp.data.drop inp.acceptsData

/-- The device accepts all it is offered in both drains. -/
def Input.AcceptsAll (inp : Input) : Prop :=
  inp.controls.length ≤ inp.acceptsControl ∧ inp.data.length ≤ inp.acceptsData

lemma Input.controls_le (inp : Input) : inp.controls.length ≤ burstSize :=
  (List.length_filter_le _ _).trans inp.burst_le

lemma Input.data_le (inp : Input) : inp.data.length ≤ burstSize :=
  (List.length_filter_le _ _).trans inp.burst_le

/-- Nothing is refused exactly when the device accepts all it is offered. -/
lemma Input.refused_eq_nil {inp : Input} : inp.refused = [] ↔ inp.AcceptsAll := by
  simp only [refused, AcceptsAll, List.append_eq_nil_iff, List.drop_eq_nil_iff]

/-- A burst is what is accepted and what is refused of it. -/
lemma Input.burst_perm (inp : Input) : inp.burst.Perm (inp.accepted ++ inp.refused) := by
  calc inp.burst
      ~ inp.controls ++ inp.data := (List.filter_append_perm isControl inp.burst).symm
    _ = (inp.controls.take inp.acceptsControl ++ inp.controls.drop inp.acceptsControl) ++
          (inp.data.take inp.acceptsData ++ inp.data.drop inp.acceptsData) := by
        rw [List.take_append_drop, List.take_append_drop]
    _ ~ inp.accepted ++ inp.refused := Ledger.perm_regroup _ _ _ _

/-! ### One iteration -/

/-- The loop over the burst put the frames into their rings and changed nothing
else. -/
structure Segregated (pkts : List Mbuf) (s t : State) : Prop where
  control : t.controlRing.items = s.controlRing.items ++ pkts.filter isControl
  data : t.dataRing.items = s.dataRing.items ++ pkts.filter fun m => !isControl m
  controlCount : t.controlCount = s.controlCount + UInt64.ofNat (pkts.countP isControl)
  dataCount : t.dataCount = s.dataCount + UInt64.ofNat (pkts.countP fun m => !isControl m)
  calls : t.calls = s.calls
  nic : t.nic = s.nic
  freed : t.freed = s.freed

/-- A counter after one more frame and then `n` more. -/
lemma count_succ (c : UInt64) (n : ℕ) :
    c + 1 + UInt64.ofNat n = c + UInt64.ofNat (n + 1) := by
  rw [UInt64.ofNat_add, UInt64.add_assoc, UInt64.add_comm 1]
  rfl

/-- With room for the burst in both rings no enqueue fails. -/
lemma segregated_foldl (pkts : List Mbuf) {s : State}
    (hc : s.controlRing.items.length + pkts.length ≤ ringSize - 1)
    (hd : s.dataRing.items.length + pkts.length ≤ ringSize - 1) :
    Segregated pkts s (pkts.foldl segregate s) := by
  induction pkts generalizing s with
  | nil => exact ⟨by simp, by simp, by simp, by simp, rfl, rfl, rfl⟩
  | cons m pkts ih =>
      simp only [List.length_cons] at hc hd
      rw [List.foldl_cons]
      by_cases hm : isControl m
      · obtain ⟨ring, hring, hitems⟩ := BoundedFifo.exists_enqueue (q := s.controlRing)
          (by omega) m
        have hstep : segregate s m =
            { s with controlRing := ring, controlCount := s.controlCount + 1 } := by
          simp [segregate, hm, hring]
        rw [hstep]
        have hrest := ih (s := { s with controlRing := ring, controlCount := s.controlCount + 1 })
          (by simp only [hitems, List.length_append, List.length_singleton]; omega)
          (by dsimp only; omega)
        obtain ⟨hcontrol, hdata, hcc, hdc, hcalls, hnic, hfreed⟩ := hrest
        refine ⟨?_, ?_, ?_, ?_, hcalls, hnic, hfreed⟩
        · rw [hcontrol, hitems, List.filter_cons_of_pos hm, List.append_assoc]
          rfl
        · rw [hdata, List.filter_cons_of_neg (by simpa using hm)]
        · rw [hcc, List.countP_cons_of_pos hm]
          exact count_succ _ _
        · rw [hdc, List.countP_cons_of_neg (by simpa using hm)]
      · obtain ⟨ring, hring, hitems⟩ := BoundedFifo.exists_enqueue (q := s.dataRing)
          (by omega) m
        have hstep : segregate s m =
            { s with dataRing := ring, dataCount := s.dataCount + 1 } := by
          simp [segregate, hm, hring]
        rw [hstep]
        have hrest := ih (s := { s with dataRing := ring, dataCount := s.dataCount + 1 })
          (by dsimp only; omega)
          (by simp only [hitems, List.length_append, List.length_singleton]; omega)
        obtain ⟨hcontrol, hdata, hcc, hdc, hcalls, hnic, hfreed⟩ := hrest
        refine ⟨?_, ?_, ?_, ?_, hcalls, hnic, hfreed⟩
        · rw [hcontrol, List.filter_cons_of_neg hm]
        · rw [hdata, hitems, List.filter_cons_of_pos (by simpa using hm), List.append_assoc]
          rfl
        · rw [hcc, List.countP_cons_of_neg hm]
        · rw [hdc, List.countP_cons_of_pos (by simpa using hm)]
          exact count_succ _ _

/-- A transmission, with the case of nothing to send included. -/
lemma txBurst_eq (s : State) (accepts : ℕ) (out : List Mbuf) :
    s.txBurst accepts out =
      { s with calls := s.calls ++ txCalls out, nic := s.nic ++ out.take accepts } := by
  rw [State.txBurst, txCalls]
  split
  · rfl
  · rename_i h
    rw [List.eq_nil_of_length_eq_zero (Nat.eq_zero_of_not_pos h)]
    simp

/-- A drain of at most a burst empties the control ring. -/
lemma drainControl_eq (accepts : ℕ) {s : State} (h : s.controlRing.items.length ≤ burstSize) :
    drainControl accepts s =
      { s with
        controlRing := .empty
        calls := s.calls ++ txCalls s.controlRing.items
        nic := s.nic ++ s.controlRing.items.take accepts } := by
  have hrest : (s.controlRing.dequeueBurst burstSize).2 = .empty :=
    BoundedFifo.ext (List.drop_of_length_le h)
  have hout : (s.controlRing.dequeueBurst burstSize).1 = s.controlRing.items :=
    List.take_of_length_le h
  simp only [drainControl, hrest, hout, txBurst_eq]

/-- A drain of at most a burst empties the data ring. -/
lemma drainData_eq (accepts : ℕ) {s : State} (h : s.dataRing.items.length ≤ burstSize) :
    drainData accepts s =
      { s with
        dataRing := .empty
        calls := s.calls ++ txCalls s.dataRing.items
        nic := s.nic ++ s.dataRing.items.take accepts } := by
  have hrest : (s.dataRing.dequeueBurst burstSize).2 = .empty :=
    BoundedFifo.ext (List.drop_of_length_le h)
  have hout : (s.dataRing.dequeueBurst burstSize).1 = s.dataRing.items :=
    List.take_of_length_le h
  simp only [drainData, hrest, hout, txBurst_eq]

/-- What an iteration from empty rings does. -/
structure Iterated (inp : Input) (s t : State) : Prop where
  control : t.controlRing = .empty
  data : t.dataRing = .empty
  controlCount : t.controlCount = s.controlCount + UInt64.ofNat (inp.burst.countP isControl)
  dataCount : t.dataCount = s.dataCount + UInt64.ofNat (inp.burst.countP fun m => !isControl m)
  calls : t.calls = s.calls ++ inp.calls
  nic : t.nic = s.nic ++ inp.accepted
  freed : t.freed = s.freed

/-- **One iteration.** From empty rings it goes to empty rings, frees nothing and
offers the control frames and then the data frames of the burst. -/
theorem iterated (inp : Input) {s : State} (hcontrol : s.controlRing = .empty)
    (hdata : s.dataRing = .empty) : Iterated inp s (iterate inp s) := by
  have hroom : inp.burst.length ≤ ringSize - 1 := inp.burst_le.trans (by decide)
  have hseg := segregated_foldl inp.burst (s := s.rxBurst inp.burst)
    (by simpa [State.rxBurst, hcontrol] using hroom) (by simpa [State.rxBurst, hdata] using hroom)
  rw [iterate]
  generalize inp.burst.foldl segregate (s.rxBurst inp.burst) = t at hseg
  have hc : t.controlRing.items = inp.controls := by
    simpa [State.rxBurst, hcontrol, Input.controls] using hseg.control
  have hd : t.dataRing.items = inp.data := by
    simpa [State.rxBurst, hdata, Input.data] using hseg.data
  rw [drainControl_eq _ (hc ▸ inp.controls_le), hc]
  rw [drainData_eq _ (by dsimp only; exact hd ▸ inp.data_le)]
  dsimp only
  rw [hd]
  refine ⟨rfl, rfl, hseg.controlCount, hseg.dataCount, ?_, ?_, hseg.freed⟩
  · simp [hseg.calls, State.rxBurst, Input.calls]
  · simp [hseg.nic, State.rxBurst, Input.accepted]

/-! ### Every loop head -/

/-- What holds at the loop head after the iterations. -/
structure AtHead (inputs : List Input) (s : State) : Prop where
  control : s.controlRing = .empty
  data : s.dataRing = .empty
  controlCount : s.controlCount = UInt64.ofNat ((received inputs).countP isControl)
  dataCount : s.dataCount = UInt64.ofNat ((received inputs).countP fun m => !isControl m)
  calls : s.calls = inputs.flatMap Input.calls
  nic : s.nic = inputs.flatMap Input.accepted
  freed : s.freed = []

/-- Every loop head is one. -/
lemma atHead_reached (inputs : List Input) : AtHead inputs (reached inputs) := by
  induction inputs using List.reverseRecOn with
  | nil => exact ⟨rfl, rfl, rfl, rfl, rfl, rfl, rfl⟩
  | append_singleton inputs inp ih =>
      have hit := iterated inp ih.control ih.data
      rw [reached, Machine.run_concat]
      refine ⟨hit.control, hit.data, ?_, ?_, ?_, ?_, hit.freed.trans ih.freed⟩
      · rw [hit.controlCount, ih.controlCount, ← UInt64.ofNat_add, ← List.countP_append]
        simp [received]
      · rw [hit.dataCount, ih.dataCount, ← UInt64.ofNat_add, ← List.countP_append]
        simp [received]
      · rw [hit.calls, ih.calls]
        simp
      · rw [hit.nic, ih.nic]
        simp

/-- **The loop head.** At every head of the loop both rings are empty, no frame
was freed for want of room, the two counters are the frames received by class,
and the device was offered, burst by burst, the control frames and then the data
frames in arrival order. -/
theorem loop_head (inputs : List Input) :
    (reached inputs).controlRing = .empty ∧ (reached inputs).dataRing = .empty ∧
    (reached inputs).freed = [] ∧
    ((reached inputs).controlCount + (reached inputs).dataCount).toNat =
      (received inputs).length % 2 ^ 64 ∧
    (reached inputs).controlCount.toNat =
      (received inputs).countP (classifyPacket · ≠ 0) % 2 ^ 64 ∧
    (reached inputs).calls = inputs.flatMap fun inp =>
      .rx inp.burst :: (txCalls (inp.burst.filter (classifyPacket · ≠ 0)) ++
        txCalls (inp.burst.filter (classifyPacket · = 0))) := by
  have hhead := atHead_reached inputs
  refine ⟨hhead.control, hhead.data, hhead.freed, ?_, ?_, ?_⟩
  · rw [hhead.controlCount, hhead.dataCount, ← UInt64.ofNat_add, UInt64.toNat_ofNat',
      List.length_eq_countP_add_countP isControl]
    simp
  · rw [hhead.controlCount, UInt64.toNat_ofNat']
    rfl
  · rw [hhead.calls]
    unfold Input.calls Input.controls Input.data
    simp only [not_isControl]
    rfl

/-! ### Conservation -/

/-- Every frame received so far was accepted by the device or freed, once. -/
def Conserved (inputs : List Input) : Prop :=
  (received inputs).Perm ((reached inputs).nic ++ (reached inputs).freed)

/-- The frames are conserved exactly when none was refused. -/
lemma conserved_iff_refused (inputs : List Input) :
    Conserved inputs ↔ inputs.flatMap Input.refused = [] := by
  have hhead := atHead_reached inputs
  have hperm : (received inputs).Perm
      (inputs.flatMap Input.accepted ++ inputs.flatMap Input.refused) :=
    Ledger.perm_settled_lost Input.burst_perm inputs
  rw [Conserved]
  rw [hhead.nic, hhead.freed, List.append_nil]
  exact Ledger.perm_left_iff hperm

/-- **Packet ownership.** Every frame is accounted for at every head of the loop
if and only if in each iteration the device accepts all frames it is offered, in
both drains. -/
theorem conserved_iff (inputs : List Input) :
    (∀ pre, pre <+: inputs → Conserved pre) ↔ ∀ inp ∈ inputs, inp.AcceptsAll := by
  constructor
  · intro h inp hmem
    have hnone := (conserved_iff_refused inputs).mp (h inputs (List.prefix_refl inputs))
    exact Input.refused_eq_nil.mp (List.flatMap_eq_nil_iff.mp hnone inp hmem)
  · rintro h pre ⟨post, rfl⟩
    refine (conserved_iff_refused pre).mpr (List.flatMap_eq_nil_iff.mpr ?_)
    intro inp hmem
    exact Input.refused_eq_nil.mpr (h inp (List.mem_append_left _ hmem))

/-- A burst of one data frame of 60 bytes that the device does not accept. -/
def refusal : Input := ⟨[⟨0, 60, fun _ => 0⟩], by decide, 0, 0⟩

/-- A frame the device does not accept is lost. -/
theorem tx_refusal_loses_frame :
    ¬ ∀ inputs : List Input, Conserved inputs := by
  intro h
  have hlen := (h [refusal]).length_eq
  revert hlen
  decide +kernel

end DpdkStarter.Segregation
