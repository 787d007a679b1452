import DpdkStarter.LearningSwitch.Switch

/-!
What the learning switch knows, and where it sends.

The packets seen so far fill the table, each one writing its ingress port under
its source; a refused write is ignored by the code, and what the table holds is
right all the same, since a present key is never refused. So the table agrees
with the history, but the history may say that the destination lies behind the
ingress port: `flood_packet` leaves that port out, the forwarding path does not.

* `lastPort`: the ingress port of the last packet from an address.
* `processPacket_accurate`: where a known destination is forwarded to, which
  destinations are flooded, and to which ports.
* `split_horizon_iff`: in a run no packet leaves by its ingress port if and only
  if its steps all meet `AwayFromIngress`.
* `forward_to_ingress`: a run in which a packet does.
-/

namespace DpdkStarter.LearningSwitch

/-- The ingress port of the last packet from the address. -/
def lastPort (addr : EtherAddr) (ps : List Packet) : Option UInt16 :=
  (ps.reverse.find? (·.src = addr)).map Packet.inPort

/-- What a packet writes into the table. -/
def Packet.learned (p : Packet) : EtherAddr × UInt64 := (p.src, portData p.inPort)

variable {T : Type*} {hash : KeyedTable T EtherAddr UInt64}

/-! ### The table and the history -/

/-- The packets fill the table. -/
lemma tableAfter_eq_fill (ps : List Packet) :
    tableAfter hash ps = hash.fill (ps.map Packet.learned) := by
  induction ps using List.reverseRecOn with
  | nil => rfl
  | append_singleton ps p ih =>
      rw [tableAfter, Machine.run_concat, step_eq, List.map_append, List.map_singleton,
        KeyedTable.fill_concat, ← ih]
      rfl

/-- The last port in the history is the last value written. -/
lemma lastValue_learned (addr : EtherAddr) (ps : List Packet) :
    KeyedTable.lastValue addr (ps.map Packet.learned) = (lastPort addr ps).map portData := by
  induction ps using List.reverseRecOn with
  | nil => rfl
  | append_singleton ps p ih =>
      rw [List.map_append, List.map_singleton, KeyedTable.lastValue_concat, ih]
      by_cases h : p.src = addr
      · simp [lastPort, Packet.learned, h]
      · simp [lastPort, Packet.learned, h]

/-- The table a packet is looked up in, itself included. -/
lemma macLearn_tableAfter (ps : List Packet) (p : Packet) :
    macLearn hash (tableAfter hash ps) p.src p.inPort = tableAfter hash (ps ++ [p]) := by
  rw [tableAfter, tableAfter, Machine.run_concat, step_eq]

/-- The verdict is read off the table after the packet. -/
lemma verdict_eq (ps : List Packet) (p : Packet) :
    verdict hash ps p = match macLookup hash (tableAfter hash (ps ++ [p])) p.dst with
      | some outPort => .forward outPort
      | none => .flood (floodPacket p.inPort) := by
  unfold verdict processPacket
  rw [macLearn_tableAfter]
  dsimp only
  cases macLookup hash (tableAfter hash (ps ++ [p])) p.dst <;> rfl

/-- What the table holds for an address is the last port it was seen at. -/
lemma lastPort_of_lookup (law : hash.Lawful) {ps : List Packet} {addr : EtherAddr} {data : UInt64}
    (h : hash.lookup (tableAfter hash ps) addr = some data) :
    lastPort addr ps = some data.toUInt16 := by
  rw [tableAfter_eq_fill] at h
  have hlast := KeyedTable.lookup_fill law h
  rw [lastValue_learned] at hlast
  obtain ⟨port, hport, rfl⟩ := Option.map_eq_some_iff.mp hlast
  rw [hport, toUInt16_portData]

/-- An address the table does not hold was refused whenever it was seen. -/
lemma refused_of_lookup (law : hash.Lawful) {ps : List Packet} {addr : EtherAddr}
    (h : hash.lookup (tableAfter hash ps) addr = none) {pre post : List Packet} {q : Packet}
    (hps : ps = pre ++ q :: post) (hsrc : q.src = addr) :
    Refused hash q (tableAfter hash pre) := by
  rw [tableAfter_eq_fill] at h
  rw [tableAfter_eq_fill]
  subst hsrc
  have hwrites : ps.map Packet.learned =
      pre.map Packet.learned ++ (q.src, portData q.inPort) :: post.map Packet.learned := by
    rw [hps]
    simp [Packet.learned]
  exact KeyedTable.refused_of_lookup_fill law h hwrites

/-! ### Accuracy -/

lemma mem_floodPacket {inPort : UInt16} {port : ℕ} :
    port ∈ floodPacket inPort ↔ port < maxPorts ∧ port ≠ inPort.toNat := by
  simp [floodPacket]

/-- **Table accuracy.** A packet whose destination is found goes to the ingress
port of the last packet from it. A flooded packet is for an address whose every
packet, if any, the table refused, and it goes to all ports but its own. -/
theorem processPacket_accurate (law : hash.Lawful) (ps : List Packet) (p : Packet) :
    (∀ data, hash.lookup (macLearn hash (tableAfter hash ps) p.src p.inPort) p.dst = some data →
      ∃ port, lastPort p.dst (ps ++ [p]) = some port ∧ verdict hash ps p = .forward port) ∧
    (∀ ports, verdict hash ps p = .flood ports →
      (∀ pre q post, ps ++ [p] = pre ++ q :: post → q.src = p.dst →
        Refused hash q (tableAfter hash pre)) ∧
      ports.Nodup ∧ ∀ port, port ∈ ports ↔ port < maxPorts ∧ port ≠ p.inPort.toNat) := by
  constructor
  · intro data hdata
    rw [macLearn_tableAfter] at hdata
    refine ⟨data.toUInt16, lastPort_of_lookup law hdata, ?_⟩
    rw [verdict_eq, macLookup, hdata]
    rfl
  · intro ports hports
    rw [verdict_eq] at hports
    cases hlookup : macLookup hash (tableAfter hash (ps ++ [p])) p.dst with
    | some outPort => simp [hlookup] at hports
    | none =>
        have hnone : hash.lookup (tableAfter hash (ps ++ [p])) p.dst = none := by
          simpa [macLookup] using hlookup
        obtain rfl : floodPacket p.inPort = ports := by simpa [hlookup] using hports
        refine ⟨?_, List.nodup_range.filter _, fun port => mem_floodPacket⟩
        intro pre q post hps hsrc
        exact refused_of_lookup law hnone hps hsrc

/-- The station A of `main`. -/
def stationA : EtherAddr := ⟨#v[0xAA, 0xBB, 0xCC, 0xDD, 0xEE, 0x01]⟩

/-- The station B of `main`. -/
def stationB : EtherAddr := ⟨#v[0xAA, 0xBB, 0xCC, 0xDD, 0xEE, 0x02]⟩

/-- The station C of `main`. -/
def stationC : EtherAddr := ⟨#v[0xAA, 0xBB, 0xCC, 0xDD, 0xEE, 0x03]⟩

/-- In the flows of `main` the third packet goes to where C was last seen. -/
theorem processPacket_accurate_main :
    ∃ port, lastPort stationC [⟨stationA, stationC, 0⟩, ⟨stationC, stationA, 2⟩,
        ⟨stationA, stationC, 0⟩] = some port ∧
      verdict macTable [⟨stationA, stationC, 0⟩, ⟨stationC, stationA, 2⟩]
        ⟨stationA, stationC, 0⟩ = .forward port :=
  (processPacket_accurate (KeyedTable.bounded_lawful _ _ _)
    [⟨stationA, stationC, 0⟩, ⟨stationC, stationA, 2⟩] ⟨stationA, stationC, 0⟩).1 2
    (by decide +kernel)

/-! ### Split horizon -/

/-- The table does not hold the destination of the packet at its ingress port,
and will not when the packet is to its own sender. -/
def AwayFromIngress (hash : KeyedTable T EtherAddr UInt64) (p : Packet) (t : T) : Prop :=
  (p.dst = p.src → Refused hash p t) ∧ (p.dst ≠ p.src → macLookup hash t p.dst ≠ some p.inPort)

instance (hash : KeyedTable T EtherAddr UInt64) (p : Packet) (t : T) :
    Decidable (AwayFromIngress hash p t) :=
  inferInstanceAs (Decidable (_ ∧ _))

/-- A packet to its own sender finds its ingress port unless the table refused to
learn it. -/
lemma macLookup_src (law : hash.Lawful) (p : Packet) (t : T) :
    macLookup hash (macLearn hash t p.src p.inPort) p.src = some p.inPort ↔ ¬ Refused hash p t := by
  rw [macLookup, macLearn, Refused]
  constructor
  · intro hfound hrefused
    rw [law.lookup_refused _ _ _ hrefused] at hfound
    have hpresent := law.accepts_present t p.src (portData p.inPort) fun hnone => by
      simp [hnone] at hfound
    simp [hrefused] at hpresent
  · intro haccepted
    rw [law.lookup_accepted _ _ _ (by simpa using haccepted)]
    simp

/-- A packet leaves by its ingress port exactly when its destination is found
there. -/
lemma inPort_mem_ports (law : hash.Lawful) (ps : List Packet) (p : Packet) :
    p.inPort.toNat ∉ (verdict hash ps p).ports ↔ AwayFromIngress hash p (tableAfter hash ps) := by
  have hports : p.inPort.toNat ∉ (verdict hash ps p).ports ↔
      macLookup hash (macLearn hash (tableAfter hash ps) p.src p.inPort) p.dst ≠ some p.inPort := by
    rw [verdict_eq, macLearn_tableAfter]
    cases macLookup hash (tableAfter hash (ps ++ [p])) p.dst with
    | none => simp [Verdict.ports, mem_floodPacket]
    | some outPort => simp [Verdict.ports, UInt16.toNat_inj, eq_comm]
  rw [hports, AwayFromIngress]
  by_cases hdst : p.dst = p.src
  · simp only [hdst, ne_eq, macLookup_src law, not_not, forall_const, not_true_eq_false,
      false_implies, and_true]
  · rw [macLookup, macLearn, law.lookup_other _ _ _ _ hdst]
    simp [hdst, macLookup]

/-- **Split horizon.** In a run no packet is sent out of the port it came in on
if and only if, at each packet, the table does not hold its destination at that
port, nor learns it there from the packet itself. -/
theorem split_horizon_iff (law : hash.Lawful) (ps : List Packet) :
    (∀ pre p, pre ++ [p] <+: ps → p.inPort.toNat ∉ (verdict hash pre p).ports) ↔
      Machine.StepsMeet (step hash) (AwayFromIngress hash) ps hash.empty := by
  rw [Machine.stepsMeet_iff_prefix]
  exact forall_congr' fun pre => forall_congr' fun p => imp_congr_right fun _ =>
    inPort_mem_ports law pre p

/-- In the flows of `main` the answer of C does not go back to port 2. -/
theorem split_horizon_iff_main :
    2 ∉ (verdict macTable [⟨stationA, stationC, 0⟩] ⟨stationC, stationA, 2⟩).ports :=
  (split_horizon_iff (KeyedTable.bounded_lawful _ _ _)
      [⟨stationA, stationC, 0⟩, ⟨stationC, stationA, 2⟩]).mpr
    ⟨by decide +kernel, by decide +kernel, trivial⟩
    [⟨stationA, stationC, 0⟩] ⟨stationC, stationA, 2⟩ (List.prefix_refl _)

/-- Two stations behind one port: the second one's packet to the first is sent
back out of that port. -/
theorem forward_to_ingress :
    ¬ ∀ (ps : List Packet) (p : Packet), p.inPort.toNat ∉ (verdict macTable ps p).ports := by
  intro h
  have hback : (0 : ℕ) ∈ (verdict macTable [⟨stationA, stationC, 0⟩]
    ⟨stationB, stationA, 0⟩).ports := by decide +kernel
  exact h [⟨stationA, stationC, 0⟩] ⟨stationB, stationA, 0⟩ hback

end DpdkStarter.LearningSwitch
