import DpdkStarter.LearningSwitch.Forwarding

/-!
The learning switch against the ideal one, which knows the whole history.

`mac_learn` does not look at what `rte_hash_add_key_data` returns, so the switch knows a
station as long as no write was refused. Until then its table is the history, and it forwards
and floods as the ideal switch does.

* `idealVerdict`: where the ideal switch sends a packet.
* `table_exact_iff`: the table is the history throughout a run exactly when no write in it is
  refused, and then every verdict is ideal.
* `ideal_of_few_stations`: so it is with no more than `HASH_ENTRIES` stations, for every table
  that refuses for want of room only.
-/

namespace DpdkStarter.LearningSwitch

open Machine

/-- The verdict of a switch that remembers every packet. -/
def idealVerdict (ps : List Packet) (p : Packet) : Verdict :=
  match lastPort p.dst (ps ++ [p]) with
  | some port => .forward port
  | none => .flood (floodPacket p.inPort)

section Exact

variable {T : Type*} {hash : KeyedTable T EtherAddr UInt64} (law : hash.Lawful)
include law

/-- With no refusal the table is the history. -/
lemma macLookup_eq_lastPort {ps : List Packet}
    (hmeet : StepsMeet (step hash) (fun p t => ¬Refused hash p t) ps hash.empty)
    (addr : EtherAddr) : macLookup hash (tableAfter hash ps) addr = lastPort addr ps := by
  rw [macLookup]
  cases hlookup : hash.lookup (tableAfter hash ps) addr with
  | some data => exact (lastPort_of_lookup law hlookup).symm
  | none =>
      symm
      rw [Option.map_none, lastPort, Option.map_eq_none_iff, List.find?_eq_none]
      intro q hq hsrc
      obtain ⟨pre, post, hps⟩ := List.append_of_mem (List.mem_reverse.mp hq)
      have hrefused := refused_of_lookup law hlookup hps (by simpa using hsrc)
      refine stepsMeet_iff_prefix.mp hmeet pre q ⟨post, ?_⟩ hrefused
      rw [hps, List.append_assoc]
      rfl

/-- With no refusal, its own write included, a packet goes where the ideal switch sends it. -/
lemma verdict_eq_ideal {ps : List Packet} {p : Packet}
    (hmeet : StepsMeet (step hash) (fun p t => ¬Refused hash p t) (ps ++ [p]) hash.empty) :
    verdict hash ps p = idealVerdict ps p := by
  have hlookup := macLookup_eq_lastPort law hmeet p.dst
  cases hport : lastPort p.dst (ps ++ [p]) with
  | none => simp [verdict_eq, idealVerdict, hlookup, hport]
  | some port => simp [verdict_eq, idealVerdict, hlookup, hport]

/-- A refused write leaves its station unknown. -/
lemma macLookup_of_refused {ps : List Packet} {p : Packet}
    (hrefused : Refused hash p (tableAfter hash ps)) :
    macLookup hash (tableAfter hash (ps ++ [p])) p.src = none := by
  have hunknown : hash.lookup (tableAfter hash ps) p.src = none := by
    by_contra hne
    have haccepted := law.accepts_present _ p.src (portData p.inPort) hne
    rw [Refused, haccepted] at hrefused
    cases hrefused
  rw [← macLearn_tableAfter, macLookup, macLearn, law.lookup_refused _ _ _ hrefused, hunknown]
  rfl

end Exact

/-- The history knows the source of its last packet. -/
lemma lastPort_concat_self (ps : List Packet) (p : Packet) :
    lastPort p.src (ps ++ [p]) = some p.inPort := by
  simp [lastPort]

/-- **The switch is the ideal one until a write is refused.** For every lawful table and every
sequence of packets: at each point the table has the last ingress port of every station seen,
and nothing else, exactly when no write so far was refused; and then every packet is forwarded
to the last port its destination was seen at, or flooded when it never was. -/
theorem table_exact_iff {T : Type*} {hash : KeyedTable T EtherAddr UInt64} (law : hash.Lawful)
    (ps : List Packet) :
    ((∀ pre, pre <+: ps → ∀ addr, macLookup hash (tableAfter hash pre) addr = lastPort addr pre) ↔
      StepsMeet (step hash) (fun p t => ¬Refused hash p t) ps hash.empty) ∧
    (StepsMeet (step hash) (fun p t => ¬Refused hash p t) ps hash.empty →
      ∀ pre p, pre ++ [p] <+: ps → verdict hash pre p = idealVerdict pre p) := by
  have hsteps : ∀ {pre}, pre <+: ps →
      StepsMeet (step hash) (fun p t => ¬Refused hash p t) ps hash.empty →
      StepsMeet (step hash) (fun p t => ¬Refused hash p t) pre hash.empty := by
    rintro pre ⟨post, rfl⟩ hmeet
    exact (stepsMeet_append.mp hmeet).1
  refine ⟨⟨fun hexact => ?_, fun hmeet pre hpre addr => ?_⟩, fun hmeet pre p hpre => ?_⟩
  · refine stepsMeet_iff_prefix.mpr fun pre p hpre hrefused => ?_
    have hknown := hexact _ hpre p.src
    rw [macLookup_of_refused law hrefused, lastPort_concat_self] at hknown
    cases hknown
  · exact macLookup_eq_lastPort law (hsteps hpre hmeet) addr
  · exact verdict_eq_ideal law (hsteps hpre hmeet)

/-- The flows of `main`: the first packet is flooded, the answer and the next one are not. -/
theorem table_exact_iff_main :
    verdict macTable [⟨stationA, stationC, 0⟩] ⟨stationC, stationA, 2⟩
      = idealVerdict [⟨stationA, stationC, 0⟩] ⟨stationC, stationA, 2⟩ :=
  (table_exact_iff (KeyedTable.bounded_lawful _ _ _)
    [⟨stationA, stationC, 0⟩, ⟨stationC, stationA, 2⟩]).2
    ⟨by decide +kernel, by decide +kernel, trivial⟩ [⟨stationA, stationC, 0⟩]
    ⟨stationC, stationA, 2⟩ (List.prefix_refl _)

/-! ### A table that refuses for want of room -/

/-- A refusal means that more stations were seen than there is room for. -/
lemma card_of_refused {T : Type*} {hash : KeyedTable T EtherAddr UInt64} (law : hash.Lawful)
    (hroom : hash.RefusesForRoom hashEntries) {ps : List Packet} {p : Packet}
    (h : Refused hash p (tableAfter hash ps)) :
    hashEntries < ((ps ++ [p]).map Packet.src).toFinset.card := by
  rw [tableAfter_eq_fill] at h
  have hkeys : (ps.map Packet.learned).map Prod.fst = ps.map Packet.src := by
    rw [List.map_map]
    rfl
  have hset : insert p.src (ps.map Packet.src).toFinset
      = ((ps ++ [p]).map Packet.src).toFinset := by
    ext addr
    simp [eq_comm]
  calc hashEntries
      < (insert p.src ((ps.map Packet.learned).map Prod.fst).toFinset).card :=
        KeyedTable.card_of_refused_fill law hroom h
    _ = ((ps ++ [p]).map Packet.src).toFinset.card := by rw [hkeys, hset]

/-- **Few stations.** For every lawful table that refuses a new key only when it holds
`HASH_ENTRIES` others: in a run with no more than `HASH_ENTRIES` different sources every packet
goes where the ideal switch sends it. -/
theorem ideal_of_few_stations {T : Type*} {hash : KeyedTable T EtherAddr UInt64}
    (law : hash.Lawful) (hroom : hash.RefusesForRoom hashEntries) (ps : List Packet)
    (h : (ps.map Packet.src).toFinset.card ≤ hashEntries) (pre : List Packet) (p : Packet)
    (hpre : pre ++ [p] <+: ps) : verdict hash pre p = idealVerdict pre p := by
  have hmeet : StepsMeet (step hash) (fun p t => ¬Refused hash p t) ps hash.empty := by
    refine stepsMeet_iff_prefix.mpr fun pre q hq hrefused => ?_
    have hmore := card_of_refused law hroom hrefused
    have hsub : ((pre ++ [q]).map Packet.src).toFinset ⊆ (ps.map Packet.src).toFinset := by
      obtain ⟨post, rfl⟩ := hq
      intro addr haddr
      rw [List.mem_toFinset] at haddr ⊢
      rw [List.map_append]
      exact List.mem_append_left _ haddr
    have hle := Finset.card_le_card hsub
    omega
  obtain ⟨post, hps⟩ := hpre
  rw [← hps] at hmeet
  exact verdict_eq_ideal law (stepsMeet_append.mp hmeet).1

/-- Two stations. -/
theorem ideal_of_few_stations_two :
    verdict macTable [⟨stationA, stationC, 0⟩] ⟨stationC, stationA, 2⟩
      = idealVerdict [⟨stationA, stationC, 0⟩] ⟨stationC, stationA, 2⟩ :=
  ideal_of_few_stations (KeyedTable.bounded_lawful _ _ _) (KeyedTable.bounded_refusesForRoom _ _ _)
    [⟨stationA, stationC, 0⟩, ⟨stationC, stationA, 2⟩] (by decide +kernel)
    [⟨stationA, stationC, 0⟩] ⟨stationC, stationA, 2⟩ (List.prefix_refl _)

end DpdkStarter.LearningSwitch
