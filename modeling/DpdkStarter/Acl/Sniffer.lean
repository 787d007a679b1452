import DpdkStarter.Acl.Defaults
import DpdkStarter.Library.Run
import DpdkStarter.Packet.Frame

/-!
`ACL/exp/main.c` and `ACL/real_packet_acl/main2.c`: two programs that print for each IPv4
frame whether their rule matches it, and free every frame.

The two have one main loop and differ in the rule. The key is put together from raw loads,
and the fields of the rule are numbers of the host: they meet because `rte_acl` reads the key
in network order.

* `ssdpRule`: the rule of the second program; `iterate`: the loop of both.
* `eval_key`: the key of a frame, by the fields of the frame.
* `decides_exp`, `decides_ssdp`: what the verdict says about the 5-tuple.
* `sniffers_report`: what is printed and freed in a run.
-/

namespace DpdkStarter.Acl.Sniffer

open Machine

/-! ### The programs -/

/-- `BURST`. -/
def burst : ℕ := 32

/-- The rule of `main2.c`: UDP to the multicast group and port of SSDP. -/
def ssdpRule : AclRule numFields where
  priority := 10
  categoryMask := 1
  userdata := 1
  field := ![⟨ipprotoUdp.toNat, 0xFF⟩, ⟨0, 0⟩, ⟨(rteIpv4 239 255 255 250).toNat, 32⟩, ⟨0, 65535⟩,
    ⟨1900, 1900⟩]

/-- The context `main2.c` builds; its field definitions read each port as an input of its own. -/
def ssdpCtx : AclCtx numFields := ⟨tupleDefs 0 4 8 12 14, [ssdpRule]⟩

/-- The lines of the loop, with the addresses in host order. -/
inductive Line where
  | rx (proto : UInt8) (src dst : UInt32)
  | aclMatch
  | aclNoMatch
  deriving DecidableEq

/-- A burst. -/
structure Input where
  burst : List Mbuf
  burst_le : burst.length ≤ Sniffer.burst

/-- What was printed, and the frames that were freed. -/
structure State where
  printed : List Line
  freed : List Mbuf

/-- The state in which the loop is entered. -/
def State.init : State := ⟨[], []⟩

variable (classify : AclCtx numFields → List UInt8 → UInt32) (ctx : AclCtx numFields) (e : Endian)

/-- What is printed for a frame; a frame that is not IPv4 is skipped. -/
def describe (m : Mbuf) : List Line :=
  match (Exp.key e).eval m.data with
  | none => []
  | some k =>
      [.rx k.proto (beToCpu32 e k.srcIp) (beToCpu32 e k.dstIp),
        if classify ctx (k.bytes e) ≠ 0 then .aclMatch else .aclNoMatch]

/-- The body of the loop. -/
def sniff (m : Mbuf) (s : State) : State :=
  { printed := s.printed ++ describe classify ctx e m
    freed := s.freed ++ [m] }

/-- One iteration. -/
def iterate (inp : Input) (s : State) : State :=
  if inp.burst.length = 0 then s else run (sniff classify ctx e) inp.burst s

/-- The state after a sequence of iterations. -/
def reached (inputs : List Input) : State := run (iterate classify ctx e) inputs State.init

/-! ### The key of a frame -/

/-- The ports, for the protocols that have them. -/
def ports : L4Header → UInt16 × UInt16
  | .udp srcPort dstPort _ _ => (srcPort, dstPort)
  | .tcp srcPort dstPort _ _ _ _ _ _ _ => (srcPort, dstPort)
  | .icmp .. | .other .. => (0, 0)

/-- The 5-tuple of a packet. -/
def tupleOf (hdr : Ipv4Header) (l4 : L4Header) : FiveTuple :=
  ⟨l4.proto, hdr.srcAddr, hdr.dstAddr, (ports l4).1, (ports l4).2⟩

/-- A tuple as it is loaded from a frame. -/
def rawKey (t : FiveTuple) : PktKey :=
  ⟨t.proto, beToCpu32 e t.src, beToCpu32 e t.dst, beToCpu16 e t.sport, beToCpu16 e t.dport⟩

variable {buf : ℕ → UInt8} {e}

lemma eval_readPorts {i : ℕ} {l4 : L4Header} (h : Carries buf i l4.encode) :
    (readPorts e id l4.proto i).eval buf
      = (beToCpu16 e (ports l4).1, beToCpu16 e (ports l4).2) := by
  have hzero : beToCpu16 e 0 = 0 := by cases e <;> decide
  cases l4 with
  | udp srcPort dstPort dgramLen dgramCksum =>
      simp only [L4Header.encode, carries_append, length_bytes16] at h
      rw [L4Header.proto, readPorts, if_pos (by decide)]
      simp only [ByteReader.eval_bind, ByteReader.eval_pure, h.1.load16 e, h.2.1.load16 e]
      rfl
  | tcp srcPort dstPort sentSeq recvAck dataOff tcpFlags rxWin cksum tcpUrp =>
      simp only [L4Header.encode, carries_append, length_bytes16] at h
      rw [L4Header.proto, readPorts, if_pos (by decide)]
      simp only [ByteReader.eval_bind, ByteReader.eval_pure, h.1.load16 e, h.2.1.load16 e]
      rfl
  | icmp icmpType icmpCode icmpCksum icmpIdent icmpSeqNb =>
      rw [L4Header.proto, readPorts, if_neg (by decide), ports, hzero]
      rfl
  | other proto hproto =>
      simp only [List.mem_cons, List.not_mem_nil, or_false, not_or] at hproto
      have hnone : ¬(proto = ipprotoTcp ∨ proto = ipprotoUdp) := not_or.mpr ⟨hproto.2.1, hproto.1⟩
      rw [L4Header.proto, readPorts, if_neg hnone, ports, hzero]
      rfl

lemma eval_readKey {i : ℕ} {hdr : Ipv4Header} {l4 : L4Header}
    (h : Carries buf i (Network.ipv4 hdr l4).encode) :
    (readKey e id id i).eval buf = rawKey e (tupleOf hdr l4) := by
  rw [Network.encode, carries_append, Ipv4Header.length_encode] at h
  obtain ⟨hversion, -, -, -, -, -, hproto, -, hsrc, hdst, -⟩ := carries_ipv4Header.mp h.1
  simp only [readKey, ByteReader.eval_bind, ByteReader.eval_pure, ByteReader.eval_byte, hproto,
    hversion, hdr.ihl_toNat, hsrc.load32 e, hdst.load32 e, eval_readPorts h.2]
  rfl

/-- **The key of a frame**, tagged or not: there is one for IPv4 packets, with the fields
of the packet. -/
lemma eval_key {m : Mbuf} {d : Frame} (h : Carries m.data 0 d.encode) :
    (Exp.key e).eval m.data
      = match d.network with
        | .ipv4 hdr l4 => some (rawKey e (tupleOf hdr l4))
        | .ipv6 _ _ | .other _ _ => none := by
  obtain ⟨-, -, htag, htype, hnetwork, -⟩ := carries_frame.mp h
  have hkey : ∀ i, Carries m.data i d.network.encode →
      (if beToCpu16 e d.network.etherType ≠ beToCpu16 e etherTypeIpv4
        then (pure none : ByteReader (Option PktKey))
        else do
          let k ← readKey e id id i
          return some k).eval m.data
      = match d.network with
        | .ipv4 hdr l4 => some (rawKey e (tupleOf hdr l4))
        | .ipv6 _ _ | .other _ _ => none := by
    intro i hi
    cases hd : d.network with
    | ipv4 hdr l4 =>
        rw [hd] at hi
        rw [Network.etherType, if_neg (not_not.mpr rfl), ByteReader.eval_bind, eval_readKey hi]
        rfl
    | ipv6 hdr l4 =>
        rw [Network.etherType, if_pos (by rw [ne_eq, beToCpu16_inj]; decide)]
        rfl
    | other type hother =>
        have hne : type ≠ etherTypeIpv4 := fun heq => hother (by simp [heq])
        rw [Network.etherType, if_pos (by rw [ne_eq, beToCpu16_inj]; exact hne)]
        rfl
  rw [Frame.l3Offset] at htype hnetwork
  cases hvlan : d.vlanTci with
  | none =>
      rw [hvlan] at htype hnetwork
      have htype' : Carries m.data 12 (bytes16 .big d.network.etherType) := htype
      rw [Exp.key, ByteReader.eval_bind, htype'.load16 e,
        if_neg (by rw [beToCpu16_inj]; exact d.network.etherType_ne_vlan)]
      exact hkey 14 hnetwork
  | some tci =>
      rw [hvlan] at htag htype hnetwork
      rw [encodeTag, carries_append] at htag
      have htype' : Carries m.data 16 (bytes16 .big d.network.etherType) := htype
      rw [Exp.key, ByteReader.eval_bind, htag.1.load16 e, if_pos rfl, ByteReader.eval_bind]
      have hload : (ByteReader.load16 e (sizeofEtherHdr + sizeofVlanHdr - 2)).eval m.data
          = beToCpu16 e d.network.etherType := htype'.load16 e
      rw [hload]
      exact hkey 18 hnetwork

/-! ### The rules -/

/-- What `rte_acl` reads in the key is the tuple. -/
lemma presents_rawKey (t : FiveTuple) :
    Presents (tupleDefs 0 4 8 12 14) ((rawKey e t).bytes e) t := by
  have hinput := input_fieldDefs e (rawKey e t)
  simp only [rawKey, beToCpu32_beToCpu32, beToCpu16_beToCpu16] at hinput
  exact hinput

/-- The tuples of the rule of `exp`: TCP from one host. -/
def IsFromHost (t : FiveTuple) : Prop := t.proto = ipprotoTcp ∧ t.src = rteIpv4 172 17 166 200

/-- The tuples of the rule of `main2.c`. -/
def IsSsdp (t : FiveTuple) : Prop :=
  t.proto = ipprotoUdp ∧ t.dst = rteIpv4 239 255 255 250 ∧ t.dport = 1900

instance (t : FiveTuple) : Decidable (IsFromHost t) := inferInstanceAs (Decidable (_ ∧ _))

instance (t : FiveTuple) : Decidable (IsSsdp t) := inferInstanceAs (Decidable (_ ∧ _))

lemma matches_ssdpRule_iff (t : FiveTuple) :
    ssdpCtx.Matches ssdpRule ((rawKey e t).bytes e) ↔ IsSsdp t := by
  have hdefs : ssdpCtx.defs = tupleDefs 0 4 8 12 14 := rfl
  rw [matches_iff hdefs rfl (presents_rawKey t)]
  constructor
  · rintro ⟨hproto, -, hdst, -, hdport⟩
    exact ⟨(matches_bitmask_full_iff ipprotoUdp t.proto).mp hproto,
      (matches_mask_full_iff (rteIpv4 239 255 255 250) t.dst).mp hdst,
      (matches_range_single_iff 1900 t.dport).mp hdport⟩
  · rintro ⟨hproto, hdst, hdport⟩
    exact ⟨(matches_bitmask_full_iff ipprotoUdp t.proto).mpr hproto, matches_mask_none t.src,
      (matches_mask_full_iff (rteIpv4 239 255 255 250) t.dst).mpr hdst, matches_range_all t.sport,
      (matches_range_single_iff 1900 t.dport).mpr hdport⟩

/-- The verdicts of a context are those of a property of the tuple. -/
def Decides (classify : AclCtx numFields → List UInt8 → UInt32) (ctx : AclCtx numFields)
    (e : Endian) (P : FiveTuple → Prop) : Prop :=
  ∀ t, classify ctx ((rawKey e t).bytes e) ≠ 0 ↔ P t

section Classify

variable {classify : AclCtx numFields → List UInt8 → UInt32} (hclassify : IsClassify classify)
include hclassify

lemma decides_exp (e : Endian) : Decides classify Exp.ctx e IsFromHost := by
  intro t
  rw [Exp.ctx, hclassify.single_rule (userdata_aclRule _) (fits_fieldDefs _),
    matches_aclRule_iff, rawKey, beToCpu32_beToCpu32, IsFromHost]

lemma decides_ssdp (e : Endian) : Decides classify ssdpCtx e IsSsdp := by
  intro t
  have huserdata : ssdpRule.userdata ≠ 0 := show (1 : UInt32) ≠ 0 by decide
  have hfits : ssdpCtx.Fits ((rawKey e t).bytes e) := by
    simp [AclCtx.Fits, ssdpCtx, tupleDefs]
  rw [← matches_ssdpRule_iff (e := e)]
  exact hclassify.single_rule huserdata hfits

end Classify

/-! ### A run -/

/-- What is printed for a frame, when the rule is for the tuples of a property. -/
def frameLines (P : FiveTuple → Prop) [DecidablePred P] (d : Frame) : List Line :=
  match d.network with
  | .ipv4 hdr l4 =>
      [.rx l4.proto hdr.srcAddr hdr.dstAddr,
        if P (tupleOf hdr l4) then .aclMatch else .aclNoMatch]
  | .ipv6 _ _ | .other _ _ => []

variable {classify : AclCtx numFields → List UInt8 → UInt32} {ctx : AclCtx numFields}

lemma describe_eq {P : FiveTuple → Prop} [DecidablePred P] (hP : Decides classify ctx e P)
    {m : Mbuf} {d : Frame} (h : m.Holds d) : describe classify ctx e m = frameLines P d := by
  rw [describe, eval_key h.data, frameLines]
  cases d.network with
  | ipv4 hdr l4 =>
      have hverdict := hP (tupleOf hdr l4)
      simp only [hverdict]
      simp only [rawKey, tupleOf, beToCpu32_beToCpu32]
  | ipv6 hdr l4 => rfl
  | other type htype => rfl

/-- A burst, frame by frame. -/
lemma run_sniff (burst : List Mbuf) (s : State) :
    run (sniff classify ctx e) burst s
      = ⟨s.printed ++ burst.flatMap (describe classify ctx e), s.freed ++ burst⟩ := by
  induction burst generalizing s with
  | nil => simp
  | cons m burst ih => simp [ih, sniff]

lemma iterate_eq (inp : Input) (s : State) :
    iterate classify ctx e inp s
      = ⟨s.printed ++ inp.burst.flatMap (describe classify ctx e), s.freed ++ inp.burst⟩ := by
  rw [iterate]
  split
  · rename_i hnone
    simp [List.eq_nil_of_length_eq_zero hnone]
  · exact run_sniff inp.burst s

/-- The frames received in a run. -/
def received (inputs : List Input) : List Mbuf := inputs.flatMap Input.burst

lemma run_iterate (inputs : List Input) (s : State) :
    run (iterate classify ctx e) inputs s
      = ⟨s.printed ++ (received inputs).flatMap (describe classify ctx e),
        s.freed ++ received inputs⟩ := by
  induction inputs generalizing s with
  | nil => simp [received]
  | cons inp inputs ih => simp [ih, iterate_eq, received]

lemma flatMap_describe {P : FiveTuple → Prop} [DecidablePred P] (hP : Decides classify ctx e P)
    {ms : List Mbuf} {ds : List Frame} (h : List.Forall₂ Mbuf.Holds ms ds) :
    ms.flatMap (describe classify ctx e) = ds.flatMap (frameLines P) := by
  induction h with
  | nil => rfl
  | cons hm _ ih => rw [List.flatMap_cons, List.flatMap_cons, ih, describe_eq hP hm]

/-- Every frame is freed, in order; when the buffers hold frames, the lines are theirs. -/
def Reports (classify : AclCtx numFields → List UInt8 → UInt32) (ctx : AclCtx numFields)
    (e : Endian) (P : FiveTuple → Prop) [DecidablePred P] (inputs : List Input) : Prop :=
  (reached classify ctx e inputs).freed = received inputs ∧
    ∀ ds, List.Forall₂ Mbuf.Holds (received inputs) ds →
      (reached classify ctx e inputs).printed = ds.flatMap (frameLines P)

lemma reports_of_decides {P : FiveTuple → Prop} [DecidablePred P] (hP : Decides classify ctx e P)
    (inputs : List Input) : Reports classify ctx e P inputs := by
  rw [Reports, reached, run_iterate]
  exact ⟨rfl, fun ds hds => flatMap_describe hP hds⟩

/-- A search of the local network, with a tag. -/
def ssdpSearch : Frame where
  dstAddr := ⟨[0x01, 0, 0x5e, 0x7f, 0xff, 0xfa], rfl⟩
  srcAddr := .ofHost 2
  vlanTci := some 5
  network := .ipv4
    { typeOfService := 0, totalLength := 28, packetId := 7, fragmentOffset := 0, timeToLive := 1
      hdrChecksum := 0, srcAddr := rteIpv4 10 0 0 1, dstAddr := rteIpv4 239 255 255 250
      options := []
      options_words := noOptions_words
      options_le := noOptions_le }
    (.udp 50000 1900 8 0)
  payload := []

end DpdkStarter.Acl.Sniffer
