import DpdkStarter.Library.Run

/-!
`reordering/dynamic_seqno/main.c`: `lcore_main_loop`.

The loop numbers the first ten packets it receives, in a field of their own, frees all
of them, and ends after the burst that brought the tenth. The tenth packet can be
anywhere in a burst, and a poll can bring none.

* `process`: the body of the loop over a burst, `iterate`: one iteration.
* `Processed`: the invariant of the inner loop, `Processed.run` its preservation by a
  burst.
* `lcore_main_loop_numbers`: what a run of any length does with its packets.
-/

namespace DpdkStarter.DynamicSeqno

open Machine

/-- `BURST_SIZE`. -/
def burstSize : ℕ := 32

/-- The burst of one iteration. -/
structure Input (P : Type*) where
  burst : List P
  burst_le : burst.length ≤ burstSize

/-- The counter, and whether the loop goes on; the packets received, the numbers
assigned, and the packets freed. -/
structure State (P : Type*) where
  seq : UInt32
  running : Bool
  received : List P
  assigned : List (P × UInt32)
  freed : List P

variable {P : Type*}

/-- The state in which the loop is entered. -/
def State.init : State P := ⟨0, true, [], [], []⟩

/-- The body of the loop over a burst. -/
def process (m : P) (s : State P) : State P :=
  let s := if s.seq < 10 then
    { s with assigned := s.assigned ++ [(m, s.seq)], seq := s.seq + 1 } else s
  { s with freed := s.freed ++ [m] }

/-- One iteration; after the loop has ended nothing is received. -/
def iterate (inp : Input P) (s : State P) : State P :=
  if s.running then
    let s := { s with received := s.received ++ inp.burst }
    if inp.burst.length = 0 then s
    else
      let s := run process inp.burst s
      if 10 ≤ s.seq then { s with running := false } else s
  else s

/-- The state after a sequence of iterations. -/
abbrev reached (inputs : List (Input P)) : State P := run iterate inputs State.init

/-- The packets of a sequence of bursts, in order. -/
def packets (inputs : List (Input P)) : List P := inputs.flatMap Input.burst

/-- The first ten packets, numbered from 0 on. -/
def numbered (ms : List P) : List (P × UInt32) :=
  (ms.take 10).zipIdx.map fun x => (x.1, UInt32.ofNat x.2)

/-! ### A burst -/

lemma packets_concat (inputs : List (Input P)) (inp : Input P) :
    packets (inputs ++ [inp]) = packets inputs ++ inp.burst := by
  simp [packets]

/-- One more packet gets the next number, as long as there are fewer than ten. -/
lemma numbered_concat (ms : List P) (m : P) :
    numbered (ms ++ [m])
      = if ms.length < 10 then numbered ms ++ [(m, UInt32.ofNat ms.length)] else numbered ms := by
  split
  · rename_i hlt
    have htake : (ms ++ [m]).take 10 = ms ++ [m] :=
      List.take_of_length_le (by rw [List.length_append, List.length_singleton]; omega)
    have htake' : ms.take 10 = ms := List.take_of_length_le (by omega)
    rw [numbered, numbered, htake, htake', List.zipIdx_append, List.map_append, Nat.zero_add]
    rfl
  · rename_i hge
    have htake : (ms ++ [m]).take 10 = ms.take 10 :=
      List.take_append_of_le_length (not_lt.mp hge)
    rw [numbered, htake, numbered]

/-- **The invariant of the inner loop**, when these packets have been processed since
the start. -/
structure Processed (ms : List P) (s : State P) : Prop where
  seq_eq : s.seq = UInt32.ofNat (min 10 ms.length)
  assigned_eq : s.assigned = numbered ms
  freed_eq : s.freed = ms

lemma Processed.seq_lt_iff {ms : List P} {s : State P} (h : Processed ms s) :
    s.seq < 10 ↔ ms.length < 10 := by
  have hseq : s.seq.toNat = min 10 ms.length := by
    rw [h.seq_eq]
    exact UInt32.toNat_ofNat_of_lt' (lt_of_le_of_lt (min_le_left _ _) (by decide))
  rw [UInt32.lt_iff_toNat_lt, hseq, show (10 : UInt32).toNat = 10 from rfl]
  omega

/-- One more packet. -/
lemma Processed.process {ms : List P} {s : State P} (h : Processed ms s) (m : P) :
    Processed (ms ++ [m]) (process m s) := by
  by_cases hlt : ms.length < 10
  · have hseq : s.seq = UInt32.ofNat ms.length := by rw [h.seq_eq, min_eq_right hlt.le]
    rw [DynamicSeqno.process, if_pos (h.seq_lt_iff.mpr hlt)]
    refine ⟨?_, ?_, congrArg (· ++ [m]) h.freed_eq⟩
    · have hmin : min 10 (ms ++ [m]).length = ms.length + 1 := by
        rw [List.length_append, List.length_singleton]
        omega
      rw [hmin, UInt32.ofNat_add, hseq]
      rfl
    · rw [numbered_concat, if_pos hlt, h.assigned_eq, hseq]
  · rw [DynamicSeqno.process, if_neg (mt h.seq_lt_iff.mp hlt)]
    refine ⟨?_, ?_, congrArg (· ++ [m]) h.freed_eq⟩
    · rw [h.seq_eq, List.length_append, List.length_singleton, min_eq_left (by omega),
        min_eq_left (by omega)]
    · rw [numbered_concat, if_neg hlt, h.assigned_eq]

/-- A burst; it changes nothing else. -/
lemma Processed.run {ms : List P} {s : State P} (h : Processed ms s) (burst : List P) :
    Processed (ms ++ burst) (run DynamicSeqno.process burst s) ∧
      (Machine.run DynamicSeqno.process burst s).received = s.received ∧
      (Machine.run DynamicSeqno.process burst s).running = s.running := by
  have hother : ∀ m (t : State P), (DynamicSeqno.process m t).received = t.received ∧
      (DynamicSeqno.process m t).running = t.running := by
    intro m t
    rw [DynamicSeqno.process]
    split <;> exact ⟨rfl, rfl⟩
  induction burst generalizing ms s with
  | nil => exact ⟨by rwa [List.append_nil], rfl, rfl⟩
  | cons m burst ih =>
      obtain ⟨hrest, hreceived, hrunning⟩ := ih (h.process m)
      rw [List.append_assoc] at hrest
      exact ⟨hrest, hreceived.trans (hother m s).1, hrunning.trans (hother m s).2⟩

/-! ### A run -/

/-- The loop has taken these bursts: it has numbered and freed their packets, and goes on
as long as there are fewer than ten; before the last burst there were. -/
structure Taken (taken : List (Input P)) (s : State P) : Prop where
  processed : Processed (packets taken) s
  received_eq : s.received = packets taken
  running_iff : s.running = true ↔ (packets taken).length < 10
  first : ∀ earlier, earlier <+: taken → earlier ≠ taken → (packets earlier).length < 10

/-- **One iteration** of the running loop takes a burst. -/
lemma Taken.iterate {taken : List (Input P)} {s : State P} (h : Taken taken s)
    (hrunning : s.running = true) (inp : Input P) : Taken (taken ++ [inp]) (iterate inp s) := by
  have hfew := h.running_iff.mp hrunning
  have hfirst : ∀ earlier, earlier <+: taken ++ [inp] → earlier ≠ taken ++ [inp] →
      (packets earlier).length < 10 := by
    intro earlier hprefix hne
    rcases List.prefix_concat_iff.mp hprefix with hall | hbefore
    · exact absurd hall hne
    · by_cases heq : earlier = taken
      · rwa [heq]
      · exact h.first earlier hbefore heq
  rw [DynamicSeqno.iterate, if_pos hrunning]
  by_cases hnone : inp.burst = []
  · have hsame : packets (taken ++ [inp]) = packets taken := by
      rw [packets_concat, hnone, List.append_nil]
    rw [if_pos (List.length_eq_zero_iff.mpr hnone)]
    refine ⟨?_, ?_, ?_, hfirst⟩
    · rw [hsame]
      exact ⟨h.processed.seq_eq, h.processed.assigned_eq, h.processed.freed_eq⟩
    · show s.received ++ inp.burst = _
      rw [h.received_eq, packets_concat]
    · rw [hsame]
      exact h.running_iff
  · have hstart : Processed (packets taken) { s with received := s.received ++ inp.burst } :=
      ⟨h.processed.seq_eq, h.processed.assigned_eq, h.processed.freed_eq⟩
    obtain ⟨hprocessed, hreceived, hstill⟩ := hstart.run inp.burst
    rw [← packets_concat] at hprocessed
    rw [if_neg (mt List.length_eq_zero_iff.mp hnone)]
    have hlog : (run DynamicSeqno.process inp.burst
        { s with received := s.received ++ inp.burst }).received = packets (taken ++ [inp]) := by
      rw [hreceived, packets_concat, ← h.received_eq]
    by_cases hten : (packets (taken ++ [inp])).length < 10
    · have hseq := hprocessed.seq_lt_iff.mpr hten
      rw [if_neg (UInt32.not_le.mpr hseq)]
      exact ⟨hprocessed, hlog, iff_of_true (hstill.trans hrunning) hten, hfirst⟩
    · have hseq := mt hprocessed.seq_lt_iff.mp hten
      rw [if_pos (UInt32.not_lt.mp hseq)]
      refine ⟨?_, hlog, iff_of_false Bool.false_ne_true hten, hfirst⟩
      exact ⟨hprocessed.seq_eq, hprocessed.assigned_eq, hprocessed.freed_eq⟩

/-- **The first ten packets are numbered.** Of every sequence of bursts the loop takes
a part from the front: all of it while fewer than ten packets have come, and otherwise up
to the first burst with which there are ten or more. The first ten packets taken get the
numbers from 0 to 9 in the order of arrival, no other packet gets one, and each packet
taken is freed once. -/
theorem lcore_main_loop_numbers (inputs : List (Input P)) :
    ∃ taken rest, inputs = taken ++ rest ∧
      (reached inputs).received = packets taken ∧
      (reached inputs).assigned = numbered (packets taken) ∧
      (reached inputs).freed = packets taken ∧
      ((reached inputs).running = true ↔ (packets taken).length < 10) ∧
      ((reached inputs).running = true → rest = []) ∧
      ∀ earlier, earlier <+: taken → earlier ≠ taken → (packets earlier).length < 10 := by
  have key : ∃ taken rest, inputs = taken ++ rest ∧ Taken taken (reached inputs) ∧
      ((reached inputs).running = true → rest = []) := by
    induction inputs using List.reverseRecOn with
    | nil =>
        have hfirst : ∀ earlier : List (Input P), earlier <+: [] → earlier ≠ [] →
            (packets earlier).length < 10 :=
          fun earlier hprefix hne => absurd (List.prefix_nil.mp hprefix) hne
        have hfew : (packets ([] : List (Input P))).length < 10 := Nat.zero_lt_succ 9
        exact ⟨[], [], rfl, ⟨⟨rfl, rfl, rfl⟩, rfl, iff_of_true rfl hfew, hfirst⟩, fun _ => rfl⟩
    | append_singleton inputs inp ih =>
        obtain ⟨taken, rest, hsplit, htaken, hall⟩ := ih
        rw [reached, run_concat]
        by_cases hrunning : (run iterate inputs (State.init : State P)).running = true
        · have hnil := hall hrunning
          rw [hnil, List.append_nil] at hsplit
          subst hsplit
          exact ⟨inputs ++ [inp], [], (List.append_nil _).symm, htaken.iterate hrunning inp,
            fun _ => rfl⟩
        · have hended : iterate inp (run iterate inputs State.init)
              = run iterate inputs (State.init : State P) := if_neg hrunning
          rw [hended]
          refine ⟨taken, rest ++ [inp], ?_, htaken, fun h => absurd h hrunning⟩
          rw [hsplit, List.append_assoc]
  obtain ⟨taken, rest, hsplit, htaken, hall⟩ := key
  exact ⟨taken, rest, hsplit, htaken.received_eq, htaken.processed.assigned_eq,
    htaken.processed.freed_eq, htaken.running_iff, hall, htaken.first⟩

end DpdkStarter.DynamicSeqno
