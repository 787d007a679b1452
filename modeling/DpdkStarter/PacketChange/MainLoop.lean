import DpdkStarter.PacketChange.Edits

/-!
The receive loop of `packet_change/main.c`: every packet is described by `parser`, changed by
`operations` and freed, until one has no room for the message and `operations` ends the process.

* `serve`, `iterate`: the loop over a burst, and an iteration of the loop around it.
* `linesOf`, `edited`: what is printed of a packet and what is left of it, on its bytes.
* `serve_of_fits`, `serve_of_refused`: a burst with room in all its packets, and one without.
* `main_until_refused`: every run, up to the packet at which it ends.
-/

namespace DpdkStarter.PacketChange

open Machine

/-! ### The loop -/

/-- What is printed, in one entry for each call of `parser` and for each of the states that
`operations` prints. -/
inductive Line where
  | received (n : ℕ)
  | packet (pktLen : ℕ) (srcMac dstMac : List UInt8)
  | sizes (label : String) (sizes : Sizes)
  | appendFailed
  deriving DecidableEq

/-- `parser`: the length and the two MAC addresses, read from where the data begin whether or
not there are so many. -/
def parser (m : Segment) : Line :=
  .packet m.dataLen (slice m.buf (m.dataOff + 6) 6) (slice m.buf m.dataOff 6)

/-- The process: what it printed, what it freed, and what it had in hand when it ended. -/
structure State where
  printed : List Line
  freed : List Segment
  inHand : List Segment
  exited : Bool

/-- The start of the loop. -/
def State.init : State := ⟨[], [], [], false⟩

/-- The lines of `operations`. -/
def sizesLines (printed : List (String × Sizes)) : List Line :=
  printed.map fun e => .sizes e.1 e.2

/-- The loop over the packets of a burst. -/
def serve (api : PktmbufApi) : List Segment → State → State
  | [], s => s
  | m :: ms, s =>
      let lines := parser m :: sizesLines (operations api m).1
      match (operations api m).2 with
      | none =>
          -- `rte_exit` frees nothing
          { s with
            printed := s.printed ++ (lines ++ [.appendFailed])
            inHand := m :: ms
            exited := true }
      | some m' => serve api ms { s with printed := s.printed ++ lines, freed := s.freed ++ [m'] }

/-- The packets of a burst. -/
structure Input where
  burst : List Segment
  length_le : burst.length ≤ 32

/-- One iteration; a process that ended receives nothing. -/
def iterate (api : PktmbufApi) (inp : Input) (s : State) : State :=
  if s.exited then s
  else if inp.burst.length > 0 then
    serve api inp.burst { s with printed := s.printed ++ [.received inp.burst.length] }
  else s

/-- The state after a sequence of iterations. -/
abbrev reached (api : PktmbufApi) (inputs : List Input) : State :=
  run (iterate api) inputs State.init

/-! ### A burst -/

/-- There is room for the message. -/
def Fits (m : Segment) : Prop := 10 ≤ m.tailroom

instance (m : Segment) : Decidable (Fits m) := inferInstanceAs (Decidable (_ ≤ _))

/-- What is printed of a packet. -/
def linesOf (m : Segment) : List Line := parser m :: sizesLines (operationsOn m.toPacket).1

/-- What is printed of a burst. -/
def linesOfBurst (burst : List Segment) : List Line :=
  if burst.length > 0 then .received burst.length :: burst.flatMap linesOf else []

/-- The packets were described, changed and freed, and the process goes on. -/
structure Served (ms : List Segment) (s t : State) : Prop where
  printed_eq : t.printed = s.printed ++ ms.flatMap linesOf
  freed_eq : t.freed.map Segment.toPacket
    = s.freed.map Segment.toPacket ++ ms.map fun m => edited m.toPacket
  inHand_eq : t.inHand = s.inHand
  exited_eq : t.exited = s.exited

section Serve

variable {api : PktmbufApi} (hapi : api.Documented)
include hapi

lemma operations_fst (m : Segment) : (operations api m).1 = (operationsOn m.toPacket).1 :=
  congrArg Prod.fst (changeMbuf_refines hapi operationsLabels m)

/-- With room for the message the packet is changed as its bytes are. -/
lemma operations_of_fits {m : Segment} (hm : Fits m) :
    ∃ m', (operations api m).2 = some m' ∧ m'.toPacket = edited m.toPacket := by
  have hroom : 10 ≤ m.toPacket.tailroom := hm
  refine Option.map_eq_some_iff.mp ?_
  have hrefines := congrArg Prod.snd (changeMbuf_refines hapi operationsLabels m)
  calc (operations api m).2.map Segment.toPacket
      = (operationsOn m.toPacket).2 := hrefines
    _ = some (edited m.toPacket) := by rw [operationsOn_snd, if_pos hroom]

/-- A packet with room is freed as `edited` says, and the loop goes on. -/
lemma serve_cons_of_fits {m : Segment} (hm : Fits m) (ms : List Segment) (s : State) :
    ∃ m', m'.toPacket = edited m.toPacket ∧
      serve api (m :: ms) s = serve api ms
        { s with printed := s.printed ++ linesOf m, freed := s.freed ++ [m'] } := by
  obtain ⟨m', hdone, hedited⟩ := operations_of_fits hapi hm
  refine ⟨m', hedited, ?_⟩
  rw [serve, hdone, linesOf, ← operations_fst hapi]

/-- A packet without room ends the process: it and what is behind it stay unfreed. -/
lemma serve_of_refused {m : Segment} (hm : ¬Fits m) (ms : List Segment) (s : State) :
    serve api (m :: ms) s = { s with
      printed := s.printed ++ (linesOf m ++ [.appendFailed])
      inHand := m :: ms
      exited := true } := by
  rw [serve, operations_exit hapi (not_le.mp hm), linesOf, ← operations_fst hapi]

/-- **Packets with room** are served, in front of any others. -/
lemma serve_append_of_fits {ms : List Segment} (hms : ∀ m ∈ ms, Fits m) (rest : List Segment)
    (s : State) : ∃ t, Served ms s t ∧ serve api (ms ++ rest) s = serve api rest t := by
  induction ms generalizing s with
  | nil => exact ⟨s, ⟨by simp, by simp, rfl, rfl⟩, rfl⟩
  | cons m ms ih =>
      obtain ⟨hm, hrest⟩ := List.forall_mem_cons.mp hms
      obtain ⟨m', hedited, hserve⟩ := serve_cons_of_fits hapi hm (ms ++ rest) s
      obtain ⟨t, ⟨hprinted, hfreed, hinHand, hexited⟩, ht⟩ := ih hrest
        { s with printed := s.printed ++ linesOf m, freed := s.freed ++ [m'] }
      refine ⟨t, ⟨?_, ?_, hinHand, hexited⟩, hserve.trans ht⟩
      · rw [hprinted, List.flatMap_cons, List.append_assoc]
      · rw [hfreed, List.map_append, List.map_singleton, hedited, List.map_cons, List.append_assoc]
        rfl

lemma serve_of_fits {ms : List Segment} (hms : ∀ m ∈ ms, Fits m) (s : State) :
    Served ms s (serve api ms s) := by
  obtain ⟨t, hserved, ht⟩ := serve_append_of_fits hapi hms [] s
  rw [List.append_nil, serve] at ht
  rwa [ht]

end Serve

/-! ### A run -/

/-- Every packet so far had room: all were described, changed and freed, in order. -/
structure Going (inputs : List Input) (s : State) : Prop where
  fits : ∀ inp ∈ inputs, ∀ m ∈ inp.burst, Fits m
  printed_eq : s.printed = inputs.flatMap fun inp => linesOfBurst inp.burst
  freed_eq : s.freed.map Segment.toPacket
    = (inputs.flatMap Input.burst).map fun m => edited m.toPacket
  inHand_eq : s.inHand = []
  exited_eq : s.exited = false

/-- The process ended at the packet `m`, behind the bursts `pre` and the packets `before`. -/
structure Ended (pre : List Input) (before : List Segment) (m : Segment) (after : List Segment)
    (s : State) : Prop where
  fits : ∀ inp ∈ pre, ∀ m' ∈ inp.burst, Fits m'
  fits_before : ∀ m' ∈ before, Fits m'
  refused : m.tailroom < 10
  printed_eq : s.printed = (pre.flatMap fun inp => linesOfBurst inp.burst) ++
    .received (before ++ m :: after).length ::
      (before.flatMap linesOf ++ (linesOf m ++ [.appendFailed]))
  freed_eq : s.freed.map Segment.toPacket
    = (pre.flatMap Input.burst ++ before).map fun m' => edited m'.toPacket
  inHand_eq : s.inHand = m :: after
  exited_eq : s.exited = true

lemma going_init : Going [] State.init := ⟨by simp, rfl, rfl, rfl, rfl⟩

/-- The first packet without room. -/
lemma exists_first_refused {ms : List Segment} (h : ¬∀ m ∈ ms, Fits m) :
    ∃ before m after, ms = before ++ m :: after ∧ (∀ m' ∈ before, Fits m') ∧ ¬Fits m := by
  cases hfind : ms.find? fun m => !decide (Fits m) with
  | none =>
      rw [List.find?_eq_none] at hfind
      exact absurd (fun m hm => by simpa using hfind m hm) h
  | some m =>
      obtain ⟨hm, before, after, hms, hbefore⟩ := List.find?_eq_some_iff_append.mp hfind
      exact ⟨before, m, after, hms, fun m' hm' => by simpa using hbefore m' hm', by simpa using hm⟩

section Run

variable {api : PktmbufApi} {inputs : List Input} {s : State}

lemma iterate_of_going (h : Going inputs s) (inp : Input) :
    iterate api inp s = if inp.burst.length > 0 then
      serve api inp.burst { s with printed := s.printed ++ [.received inp.burst.length] }
    else s := by
  rw [iterate, h.exited_eq]
  rfl

variable (hapi : api.Documented)
include hapi

/-- An iteration with room for every packet. -/
lemma Going.step (h : Going inputs s) {inp : Input} (hinp : ∀ m ∈ inp.burst, Fits m) :
    Going (inputs ++ [inp]) (iterate api inp s) := by
  have hfits : ∀ i ∈ inputs ++ [inp], ∀ m ∈ i.burst, Fits m := by
    intro i hi
    rcases List.mem_append.mp hi with hold | hnew
    · exact h.fits i hold
    · rw [List.mem_singleton.mp hnew]
      exact hinp
  rw [iterate_of_going h]
  by_cases hlen : inp.burst.length > 0
  · obtain ⟨hprinted, hfreed, hinHand, hexited⟩ := serve_of_fits hapi hinp
      { s with printed := s.printed ++ [.received inp.burst.length] }
    rw [if_pos hlen]
    refine ⟨hfits, ?_, ?_, hinHand.trans h.inHand_eq, hexited.trans h.exited_eq⟩
    · rw [hprinted, h.printed_eq, List.flatMap_append, List.flatMap_singleton, linesOfBurst,
        if_pos hlen, List.append_assoc]
      rfl
    · rw [hfreed, h.freed_eq, List.flatMap_append, List.flatMap_singleton, List.map_append]
  · have hnil : inp.burst = [] := List.eq_nil_of_length_eq_zero (Nat.eq_zero_of_not_pos hlen)
    rw [if_neg hlen]
    refine ⟨hfits, ?_, ?_, h.inHand_eq, h.exited_eq⟩
    · rw [h.printed_eq, List.flatMap_append, List.flatMap_singleton, linesOfBurst, if_neg hlen,
        List.append_nil]
    · rw [h.freed_eq, List.flatMap_append, List.flatMap_singleton, hnil, List.append_nil]

/-- An iteration with a packet that has no room. -/
lemma Going.ends (h : Going inputs s) {inp : Input} {before after : List Segment} {m : Segment}
    (hburst : inp.burst = before ++ m :: after) (hbefore : ∀ m' ∈ before, Fits m')
    (hm : ¬Fits m) : Ended inputs before m after (iterate api inp s) := by
  have hlen : (before ++ m :: after).length > 0 := by simp
  obtain ⟨t, ⟨hprinted, hfreed, -, -⟩, ht⟩ := serve_append_of_fits hapi hbefore (m :: after)
    { s with printed := s.printed ++ [.received (before ++ m :: after).length] }
  rw [iterate_of_going h, hburst, if_pos hlen, ht, serve_of_refused hapi hm]
  refine ⟨h.fits, hbefore, not_le.mp hm, ?_, ?_, rfl, rfl⟩
  · simp only [hprinted, h.printed_eq, List.append_assoc, List.cons_append, List.nil_append]
  · rw [List.map_append]
    exact hfreed.trans (congrArg (· ++ _) h.freed_eq)

/-- A run goes on, or it ended. -/
lemma reached_cases (inputs : List Input) : Going inputs (reached api inputs) ∨
    ∃ pre inp post before m after, inputs = pre ++ inp :: post ∧ inp.burst = before ++ m :: after ∧
      Ended pre before m after (reached api inputs) := by
  induction inputs using List.reverseRecOn with
  | nil => exact Or.inl going_init
  | append_singleton inputs inp ih =>
      rw [reached, run_concat]
      rcases ih with hgoing | ⟨pre, i, post, before, m, after, hinputs, hburst, hended⟩
      · by_cases hinp : ∀ m ∈ inp.burst, Fits m
        · exact Or.inl (hgoing.step hapi hinp)
        · obtain ⟨before, m, after, hburst, hbefore, hm⟩ := exists_first_refused hinp
          exact Or.inr ⟨inputs, inp, [], before, m, after, rfl, hburst,
            hgoing.ends hapi hburst hbefore hm⟩
      · -- a process that ended receives nothing
        refine Or.inr ⟨pre, i, post ++ [inp], before, m, after, ?_, hburst, ?_⟩
        · rw [hinputs, List.append_assoc, List.cons_append]
        · rw [iterate, if_pos hended.exited_eq]
          exact hended

end Run

/-- **Until the first packet without room.** In every run of the loop, for functions of DPDK
that do what is documented: the process ends exactly when a packet with less than ten bytes
behind its data was received. As long as there was none, every packet was described, changed
as `edited` says and freed, in order. Otherwise so were those before the first such packet,
which itself is described but, with the rest of its burst, never freed. -/
theorem main_until_refused {api : PktmbufApi} (hapi : api.Documented) (inputs : List Input) :
    ((reached api inputs).exited = true ↔ ∃ inp ∈ inputs, ∃ m ∈ inp.burst, m.tailroom < 10) ∧
    (Going inputs (reached api inputs) ∨
      ∃ pre inp post before m after, inputs = pre ++ inp :: post ∧
        inp.burst = before ++ m :: after ∧ Ended pre before m after (reached api inputs)) := by
  refine ⟨?_, reached_cases hapi inputs⟩
  rcases reached_cases hapi inputs with hgoing | ⟨pre, inp, post, before, m, after, hinputs,
    hburst, hended⟩
  · rw [hgoing.exited_eq]
    refine iff_of_false Bool.false_ne_true ?_
    rintro ⟨inp, hinp, m, hm, hroom⟩
    exact absurd (hgoing.fits inp hinp m hm) (not_le.mpr hroom)
  · refine iff_of_true hended.exited_eq ⟨inp, ?_, m, ?_, hended.refused⟩
    · rw [hinputs]
      exact List.mem_append_right _ List.mem_cons_self
    · rw [hburst]
      exact List.mem_append_right _ List.mem_cons_self

/-- The second packet of this burst fills its buffer. -/
theorem main_until_refused_full :
    (reached pktmbuf [⟨[segment 128 60 1988 (by decide), segment 128 2048 0 (by decide)],
      by decide⟩]).exited = true :=
  (main_until_refused documented_pktmbuf [⟨[segment 128 60 1988 (by decide),
    segment 128 2048 0 (by decide)], by decide⟩]).1.mpr
    ⟨_, List.mem_cons_self, _, List.mem_cons_of_mem _ List.mem_cons_self, by decide⟩

end DpdkStarter.PacketChange
