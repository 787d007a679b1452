import DpdkStarter.Library.Run
import DpdkStarter.Library.ByteProgram
import DpdkStarter.Packet.Mbuf

/-!
`tranmit_packet/packet_creation/simple_tx.c`: a generator that builds one packet
and transmits it in an endless loop.

The calls that take or give away packet buffers are recorded in order. A buffer is
the program's from its allocation until the device accepts it or it is freed, and
a call is in order when the program owns the buffer it passes. What is in a buffer
is known as long as it is the program's; the loop uses the pointer alone.

* `start`: up to the loop (`exists_of_start`); `iterate`: one iteration, given the result of
  `rte_eth_tx_burst`.
* `usesOwned_append_singleton`: a record is in order call by call.
* `generator_owned_iff`: the record is in order up to the end of the first
  iteration and no further.
-/

namespace DpdkStarter.SimpleTx

open ByteProgram

/-! ### The program -/

/-- `payload`. -/
def payload : List UInt8 := "Hello from DPDK AF_PACKET!".toList.map fun c => c.toNat.toUInt8

/-- `pkt_len`. -/
def pktLen : ℕ := sizeofEtherHdr + sizeofIpv4Hdr + sizeofUdpHdr + payload.length

/-- The bytes `build_udp_packet` writes, field by field. -/
def writeFields (rteIpv4Cksum : ByteReader UInt16) (e : Endian) : ByteProgram Unit := do
  store 0 [0xFF, 0xFF, 0xFF, 0xFF, 0xFF, 0xFF]
  store 6 [0x00, 0x15, 0x5D, 0x0E, 0x66, 0x03]
  store16 e 12 (beToCpu16 e etherTypeIpv4)
  let ip := sizeofEtherHdr
  store ip [0x45]
  store (ip + 1) [0]
  store16 e (ip + 2) (beToCpu16 e (sizeofIpv4Hdr + sizeofUdpHdr + payload.length).toUInt16)
  store16 e (ip + 4) 0
  store16 e (ip + 6) 0
  store (ip + 8) [64]
  store (ip + 9) [ipprotoUdp]
  store32 e (ip + 12) (beToCpu32 e 0x7F000001)
  store32 e (ip + 16) (beToCpu32 e 0x7F000001)
  store16 e (ip + 10) 0
  let cksum ← ofReader rteIpv4Cksum
  store16 e (ip + 10) cksum
  let udp := ip + sizeofIpv4Hdr
  store16 e udp (beToCpu16 e 1234)
  store16 e (udp + 2) (beToCpu16 e 5678)
  store16 e (udp + 4) (beToCpu16 e (sizeofUdpHdr + payload.length).toUInt16)
  store16 e (udp + 6) 0
  store (udp + sizeofUdpHdr) payload

/-- `build_udp_packet`. -/
def buildUdpPacket (rteIpv4Cksum : ByteReader UInt16) (e : Endian) (m : Mbuf) : Mbuf :=
  { m with
    dataLen := pktLen.toUInt16
    data := ((writeFields rteIpv4Cksum e).exec m.data).2 }

/-- The calls that take or give away a packet buffer, with its address. -/
inductive Call where
  | pktmbufAlloc (m : ℕ)
  | ethTxBurst (m : ℕ) (sent : Bool)
  | pktmbufFree (m : ℕ)
  deriving DecidableEq, Repr

/-- The lines the program prints. -/
inductive Line where
  | portStarted (portId : ℕ)
  | driver (name : String)
  | transmitting
  | failedToSend
  | packetSent
  deriving DecidableEq, Repr

/-- What the library calls before the loop answer. -/
structure Setup where
  ealInit : ℤ
  poolCreated : Bool
  devConfigure : ℤ
  rxQueueSetup : ℤ
  txQueueSetup : ℤ
  devStart : ℤ
  driverName : String
  alloc : Option Mbuf
  rteIpv4Cksum : ByteReader UInt16
  endian : Endian

/-- The pointer `m`, what the buffer behind it contains while it is the program's, what
has been printed, and the calls. -/
structure State where
  m : ℕ
  buffer : Option Mbuf
  printed : List Line
  calls : List Call

/-- `init_port`, on port 0: the lines it prints, or the message it exits with. -/
def initPort (env : Setup) : Except String (List Line) :=
  if env.devConfigure < 0 then .error "Port configure failed\n"
  else if env.rxQueueSetup < 0 then .error "RX queue setup failed\n"
  else if env.txQueueSetup < 0 then .error "TX queue setup failed\n"
  else if env.devStart < 0 then .error "Port start failed\n"
  else .ok [.portStarted 0, .driver env.driverName]

/-- `main` up to the loop. -/
def start (env : Setup) : Except String State :=
  if env.ealInit < 0 then .error "EAL init failed\n"
  else if env.poolCreated = false then .error "Cannot create mempool\n"
  else do
    let printed ← initPort env
    match env.alloc with
    | none => .error "mbuf alloc failed\n"
    | some m =>
        return {
          m := m.addr
          buffer := some (buildUdpPacket env.rteIpv4Cksum env.endian m)
          printed := printed ++ [.transmitting]
          calls := [.pktmbufAlloc m.addr] }

/-- One iteration of the loop, in which the device takes the packet or not. -/
def iterate (sent : Bool) (s : State) : State :=
  { s with
    -- the device has it now, or the pool
    buffer := none
    printed := s.printed ++ [if sent then .packetSent else .failedToSend]
    calls := s.calls ++ .ethTxBurst s.m sent :: if sent then [] else [.pktmbufFree s.m] }

/-! ### Ownership -/

/-- The buffer a call passes to the library. -/
def Call.passes : Call → Option ℕ
  | .pktmbufAlloc _ => none
  | .ethTxBurst m _ => some m
  | .pktmbufFree m => some m

/-- The buffer that is no longer the program's after a call. -/
def Call.gives : Call → Option ℕ
  | .pktmbufAlloc _ => none
  | .ethTxBurst m sent => if sent then some m else none
  | .pktmbufFree m => some m

/-- The program owns the buffer after these calls: it has allocated it, and neither
given it to the device nor freed it. -/
def Owned (calls : List Call) (m : ℕ) : Prop :=
  .pktmbufAlloc m ∈ calls ∧ ∀ c ∈ calls, c.gives ≠ some m

/-- Every call passes a buffer the program owns. -/
def UsesOwned (calls : List Call) : Prop :=
  ∀ pre c post, calls = pre ++ c :: post → ∀ m, c.passes = some m → Owned pre m

instance (calls : List Call) (m : ℕ) : Decidable (Owned calls m) :=
  inferInstanceAs (Decidable (_ ∧ _))

/-- What was given away stays away. -/
lemma not_owned_of_gives {calls : List Call} {c : Call} {m : ℕ} (hc : c ∈ calls)
    (hgives : c.gives = some m) : ¬Owned calls m :=
  fun h => h.2 c hc hgives

lemma usesOwned_nil : UsesOwned [] := by
  intro pre c post h
  exact absurd h.symm (List.append_ne_nil_of_right_ne_nil pre (List.cons_ne_nil c post))

/-- **A record is in order call by call.** -/
lemma usesOwned_append_singleton {calls : List Call} {c : Call} :
    UsesOwned (calls ++ [c]) ↔ UsesOwned calls ∧ ∀ m, c.passes = some m → Owned calls m := by
  constructor
  · intro h
    refine ⟨fun pre d post hsplit => h pre d (post ++ [c]) ?_, h calls c [] rfl⟩
    rw [hsplit, List.append_assoc, List.cons_append]
  · rintro ⟨hcalls, hlast⟩ pre d post hsplit
    rcases List.eq_nil_or_concat post with rfl | ⟨post', d', rfl⟩
    · obtain ⟨rfl, hd⟩ := List.append_inj' hsplit rfl
      rw [← List.head_eq_of_cons_eq hd]
      exact hlast
    · rw [List.concat_eq_append, ← List.cons_append, ← List.append_assoc] at hsplit
      exact hcalls pre d post' (List.append_inj' hsplit rfl).1

/-! ### The loop -/

/-- **Up to the loop**: the allocation gave a buffer, and it was built. -/
lemma exists_of_start {env : Setup} {s : State} (h : start env = .ok s) :
    ∃ found printed, env.alloc = some found ∧
      s = {
        m := found.addr
        buffer := some (buildUdpPacket env.rteIpv4Cksum env.endian found)
        printed := printed ++ [.transmitting]
        calls := [.pktmbufAlloc found.addr] } := by
  rw [start] at h
  split_ifs at h
  cases hport : initPort env with
  | error msg =>
      rw [hport] at h
      cases h
  | ok printed =>
      rw [hport] at h
      cases halloc : env.alloc with
      | none =>
          rw [halloc] at h
          cases h
      | some found =>
          rw [halloc] at h
          exact ⟨found, printed, rfl, (Except.ok.inj h).symm⟩

lemma start_calls {env : Setup} {s : State} (h : start env = .ok s) :
    s.calls = [.pktmbufAlloc s.m] := by
  obtain ⟨found, printed, -, rfl⟩ := exists_of_start h
  rfl

/-- Before the loop the buffer is the program's. -/
lemma start_owned {env : Setup} {s : State} (h : start env = .ok s) :
    UsesOwned s.calls ∧ Owned s.calls s.m := by
  rw [start_calls h]
  constructor
  · rw [← List.nil_append [Call.pktmbufAlloc s.m], usesOwned_append_singleton]
    exact ⟨usesOwned_nil, fun m hm => absurd hm (by simp [Call.passes])⟩
  · exact ⟨List.mem_singleton_self _, by simp [Call.gives]⟩

/-- The first call of an iteration is in order when the buffer is the program's. -/
lemma usesOwned_ethTxBurst {calls : List Call} {m : ℕ} {sent : Bool} :
    UsesOwned (calls ++ [.ethTxBurst m sent]) ↔ UsesOwned calls ∧ Owned calls m := by
  rw [usesOwned_append_singleton]
  refine and_congr_right fun _ => ⟨fun h => h m rfl, fun h m' hm' => ?_⟩
  rw [← Option.some.inj hm']
  exact h

/-- **One iteration** is in order exactly when it finds the buffer owned. -/
lemma usesOwned_iterate {s : State} (h : UsesOwned s.calls) (sent : Bool) :
    UsesOwned (iterate sent s).calls ↔ Owned s.calls s.m := by
  cases sent with
  | true =>
      show UsesOwned (s.calls ++ [.ethTxBurst s.m true]) ↔ _
      rw [usesOwned_ethTxBurst, and_iff_right h]
  | false =>
      have hcalls : (iterate false s).calls
          = (s.calls ++ [.ethTxBurst s.m false]) ++ [.pktmbufFree s.m] := by
        simp [iterate]
      rw [hcalls, usesOwned_append_singleton, usesOwned_ethTxBurst, and_iff_right h]
      refine ⟨fun hboth => hboth.1, fun howned => ⟨howned, fun m hm => ?_⟩⟩
      rw [← Option.some.inj hm]
      -- a refused burst leaves the buffer with the program
      refine ⟨List.mem_append_left _ howned.1, fun c hc => ?_⟩
      rcases List.mem_append.mp hc with hold | hnew
      · exact howned.2 c hold
      · rw [List.mem_singleton.mp hnew]
        exact nofun

/-- Whatever the device answers, the buffer is not the program's afterwards. -/
lemma not_owned_iterate (sent : Bool) (s : State) : ¬Owned (iterate sent s).calls s.m := by
  cases sent with
  | true => exact not_owned_of_gives (c := .ethTxBurst s.m true) (by simp [iterate]) rfl
  | false => exact not_owned_of_gives (c := .pktmbufFree s.m) (by simp [iterate]) rfl

/-- **Ownership in the generator**: its calls pass buffers it owns, at every point
of the loop, exactly as long as it has called `rte_eth_tx_burst` once at most. -/
theorem generator_owned_iff (env : Setup) (s : State) (hstart : start env = .ok s)
    (results : List Bool) :
    (∀ pre, pre <+: results → UsesOwned (Machine.run iterate pre s).calls)
      ↔ results.length ≤ 1 := by
  obtain ⟨huses, howned⟩ := start_owned hstart
  match results with
  | [] =>
      refine iff_of_true (fun pre hpre => ?_) (Nat.zero_le 1)
      rw [List.prefix_nil.mp hpre]
      exact huses
  | [sent] =>
      refine iff_of_true (fun pre hpre => ?_) (le_refl 1)
      rcases List.prefix_cons_iff.mp hpre with rfl | ⟨rest, rfl, hrest⟩
      · exact huses
      · rw [List.prefix_nil.mp hrest]
        exact (usesOwned_iterate huses sent).mpr howned
  | first :: second :: rest =>
      refine iff_of_false (fun h => ?_) (by simp)
      have hfirst := h [first] ⟨second :: rest, rfl⟩
      have hsecond := h [first, second] ⟨rest, rfl⟩
      exact not_owned_iterate first s ((usesOwned_iterate hfirst second).mp hsecond)

/-- Library calls that succeed, on a little-endian host. -/
def goodSetup : Setup :=
  { ealInit := 0, poolCreated := true, devConfigure := 0, rxQueueSetup := 0, txQueueSetup := 0
    devStart := 0, driverName := "net_af_packet", alloc := some ⟨0, 0, fun _ => 0⟩
    rteIpv4Cksum := pure 0, endian := .little }

/-- A refused packet is freed and offered again. -/
theorem freed_packet_transmitted :
    ∃ s, start goodSetup = .ok s ∧ ¬UsesOwned (Machine.run iterate [false, false] s).calls := by
  refine ⟨_, rfl, fun h => ?_⟩
  have howned := h [.pktmbufAlloc 0, .ethTxBurst 0 false, .pktmbufFree 0] (.ethTxBurst 0 false)
    [.pktmbufFree 0] rfl 0 rfl
  exact absurd howned (by decide)

theorem first_packet_owned :
    ∃ s, start goodSetup = .ok s ∧
      ∀ pre, pre <+: [true] → UsesOwned (Machine.run iterate pre s).calls :=
  ⟨_, rfl, (generator_owned_iff goodSetup _ rfl [true]).mpr (le_refl 1)⟩

end DpdkStarter.SimpleTx
