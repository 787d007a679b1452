import DpdkStarter.Acl.RteAcl
import DpdkStarter.Packet.Mbuf

/-!
`ACL/l2fwd_acl/main.c` and `ACL/exp/main.c`: the key a frame is classified by,
the rule, and the verdict, on hosts of either byte order.

The two programs have the same `struct pkt_key` and the same field definitions.
The first one converts what it loads from a frame and swaps the address of the
rule, the second one does neither. What lies behind a frame is read as the memory
there is.

* `PktKey.bytes`: the key in memory; `input_fieldDefs`: the numbers `rte_acl` reads
  in it.
* `L2fwd.forwards`, `Exp.report`: the verdicts.
* `verdicts_agree`: on an untagged IPv4 frame they are the same one.
-/

namespace DpdkStarter.Acl

/-- `NUM_FIELDS`. -/
abbrev numFields : ℕ := 5

/-- `struct pkt_key`. -/
structure PktKey where
  proto : UInt8
  srcIp : UInt32
  dstIp : UInt32
  srcPort : UInt16
  dstPort : UInt16
  deriving DecidableEq, Repr

/-- The key in memory, with three bytes of padding behind the protocol. -/
def PktKey.bytes (e : Endian) (k : PktKey) : List UInt8 :=
  [k.proto, 0, 0, 0] ++ bytes32 e k.srcIp ++ bytes32 e k.dstIp ++ bytes16 e k.srcPort
    ++ bytes16 e k.dstPort

/-- `field_defs`. -/
def fieldDefs : List (FieldDef numFields) :=
  [⟨.bitmask, 1, 0, 0, 0⟩, ⟨.mask, 4, 1, 1, 4⟩, ⟨.mask, 4, 2, 2, 8⟩, ⟨.range, 2, 3, 3, 12⟩,
    ⟨.range, 2, 4, 3, 14⟩]

/-- `field_defs` of a program whose keys have the fields at these offsets, each read as an
input of its own. -/
def tupleDefs (proto src dst sport dport : ℕ) : List (FieldDef numFields) :=
  [⟨.bitmask, 1, 0, 0, proto⟩, ⟨.mask, 4, 1, 1, src⟩, ⟨.mask, 4, 2, 2, dst⟩,
    ⟨.range, 2, 3, 3, sport⟩, ⟨.range, 2, 4, 4, dport⟩]

/-- The rule both programs add, with their number for the source address. -/
def aclRule (src : UInt32) : AclRule numFields where
  priority := 10
  categoryMask := 1
  userdata := 1
  field := ![⟨ipprotoTcp.toNat, 0xFF⟩, ⟨src.toNat, 32⟩, ⟨0, 0⟩, ⟨0, 65535⟩, ⟨0, 65535⟩]

lemma userdata_aclRule (src : UInt32) : (aclRule src).userdata ≠ 0 :=
  show (1 : UInt32) ≠ 0 by decide

/-- The ports of the transport header at offset `l4`, which start it for TCP and for
UDP; the key is zeroed before. -/
def readPorts (e : Endian) (conv16 : UInt16 → UInt16) (proto : UInt8) (l4 : ℕ) :
    ByteReader (UInt16 × UInt16) :=
  if proto = ipprotoTcp ∨ proto = ipprotoUdp then do
    let srcPort ← .load16 e l4
    let dstPort ← .load16 e (l4 + 2)
    return (conv16 srcPort, conv16 dstPort)
  else return (0, 0)

/-- The key of the IPv4 packet at offset `ip`, with the conversions applied to
what is loaded. -/
def readKey (e : Endian) (conv16 : UInt16 → UInt16) (conv32 : UInt32 → UInt32) (ip : ℕ) :
    ByteReader PktKey := do
  let proto ← .byte (ip + 9)
  let src ← .load32 e (ip + 12)
  let dst ← .load32 e (ip + 16)
  let versionIhl ← .byte ip
  let ports ← readPorts e conv16 proto (ip + (versionIhl &&& 0x0F).toNat * 4)
  return ⟨proto, conv32 src, conv32 dst, ports.1, ports.2⟩

/-! ### The two programs -/

namespace L2fwd

/-- The context `init_acl` builds. -/
def ctx (e : Endian) : AclCtx numFields :=
  ⟨fieldDefs, [aclRule (beToCpu32 e (rteIpv4 172 17 166 200))]⟩

/-- The key the main loop builds of an IPv4 frame. -/
def key (e : Endian) : ByteReader (Option PktKey) := do
  let ethType ← .load16 e 12
  if ethType ≠ beToCpu16 e etherTypeIpv4 then return none
  else do
    let k ← readKey e (beToCpu16 e) (beToCpu32 e) sizeofEtherHdr
    return some k

/-- The main loop transmits the frame; it frees any other. -/
def forwards (classify : AclCtx numFields → List UInt8 → UInt32) (e : Endian) (m : Mbuf) : Bool :=
  match (key e).eval m.data with
  | none => false
  | some k => classify (ctx e) (k.bytes e) != 0

end L2fwd

namespace Exp

/-- The context `main` builds. -/
def ctx : AclCtx numFields := ⟨fieldDefs, [aclRule (rteIpv4 172 17 166 200)]⟩

/-- The key the main loop builds of an IPv4 frame, which may have a VLAN tag. -/
def key (e : Endian) : ByteReader (Option PktKey) := do
  let ethType ← .load16 e 12
  if ethType = beToCpu16 e etherTypeVlan then do
    let ptr := sizeofEtherHdr + sizeofVlanHdr
    let ethType ← .load16 e (ptr - 2)
    if ethType ≠ beToCpu16 e etherTypeIpv4 then return none
    else do
      let k ← readKey e id id ptr
      return some k
  else if ethType ≠ beToCpu16 e etherTypeIpv4 then return none
  else do
    let k ← readKey e id id sizeofEtherHdr
    return some k

/-- What the main loop prints of an IPv4 frame. -/
structure Report where
  proto : UInt8
  src : UInt32
  dst : UInt32
  isMatch : Bool

/-- The report on a frame; there is none on a frame that is not IPv4. -/
def report (classify : AclCtx numFields → List UInt8 → UInt32) (e : Endian) (m : Mbuf) :
    Option Report :=
  ((key e).eval m.data).map fun k =>
    ⟨k.proto, beToCpu32 e k.srcIp, beToCpu32 e k.dstIp, classify ctx (k.bytes e) != 0⟩

end Exp

/-! ### What `rte_acl` reads -/

variable {e : Endian} {k : PktKey}

/-- **The fields of a key** are read as what the key holds, converted. -/
lemma input_fieldDefs (e : Endian) (k : PktKey) :
    fieldDefs.map (fun d => d.input (k.bytes e))
      = [k.proto.toNat, (beToCpu32 e k.srcIp).toNat, (beToCpu32 e k.dstIp).toNat,
        (beToCpu16 e k.srcPort).toNat, (beToCpu16 e k.dstPort).toNat] := by
  have hproto : k.proto.toNat = beValue [k.proto] := by simp [beValue]
  rw [hproto, ← beValue_bytes32, ← beValue_bytes32, ← beValue_bytes16, ← beValue_bytes16]
  cases e <;> rfl

/-- A key in memory. -/
@[simp] lemma PktKey.length_bytes (e : Endian) (k : PktKey) : (k.bytes e).length = 16 := by
  simp [PktKey.bytes]

/-- It has all the fields. -/
lemma fits_fieldDefs (rules : List (AclRule numFields)) :
    AclCtx.Fits ⟨fieldDefs, rules⟩ (k.bytes e) := by
  simp [AclCtx.Fits, fieldDefs]

/-- The rule asks for TCP and for the source address; the destination and the
ports are wildcards. -/
lemma matches_aclRule_iff (src : UInt32) :
    AclCtx.Matches ⟨fieldDefs, [aclRule src]⟩ (aclRule src) (k.bytes e)
      ↔ k.proto = ipprotoTcp ∧ beToCpu32 e k.srcIp = src := by
  have hinput := input_fieldDefs e k
  simp only [fieldDefs, List.map_cons, List.map_nil, List.cons.injEq, and_true] at hinput
  obtain ⟨hin, hinSrc, hinDst, hinSport, hinDport⟩ := hinput
  simp only [AclCtx.Matches, fieldDefs, List.forall_mem_cons, hin, hinSrc, hinDst, hinSport,
    hinDport]
  have hproto := matches_bitmask_full_iff ipprotoTcp k.proto
  have hsrc := matches_mask_full_iff src (beToCpu32 e k.srcIp)
  have hdst := matches_mask_none (beToCpu32 e k.dstIp)
  have hsport := matches_range_all (beToCpu16 e k.srcPort)
  have hdport := matches_range_all (beToCpu16 e k.dstPort)
  constructor
  · rintro ⟨-, hp, hs, -⟩
    exact ⟨hproto.mp hp, hsrc.mp hs⟩
  · rintro ⟨hp, hs⟩
    exact ⟨show (1 : UInt32) &&& 1 ≠ 0 by decide, hproto.mpr hp, hsrc.mpr hs, hdst, hsport, hdport,
      fun d hd => absurd hd List.not_mem_nil⟩

/-! ### The verdicts -/

variable {classify : AclCtx numFields → List UInt8 → UInt32} {m : Mbuf}

/-- The protocol of a key is the one in the header. -/
lemma readKey_proto (e : Endian) (conv16 : UInt16 → UInt16) (conv32 : UInt32 → UInt32) (ip : ℕ)
    (buf : ℕ → UInt8) : ((readKey e conv16 conv32 ip).eval buf).proto = buf (ip + 9) := by
  simp [readKey]

/-- The source address of a key is the one in the header, as it is converted. -/
lemma readKey_srcIp (e : Endian) (conv16 : UInt16 → UInt16) (conv32 : UInt32 → UInt32) (ip : ℕ)
    (buf : ℕ → UInt8) :
    ((readKey e conv16 conv32 ip).eval buf).srcIp
      = conv32 ((ByteReader.load32 e (ip + 12)).eval buf) := by
  simp [readKey]

/-- The frame, taken as an IPv4 packet, is of TCP and comes from 172.17.166.200. -/
def FromHost (m : Mbuf) : Prop :=
  m.data (sizeofEtherHdr + 9) = ipprotoTcp ∧
    (ByteReader.be32 (sizeofEtherHdr + 12)).eval m.data = rteIpv4 172 17 166 200

/-- The first program transmits the TCP frames of that host. -/
lemma L2fwd.forwards_iff (hclassify : IsClassify classify) (hframe : isIpv4 m = true) :
    L2fwd.forwards classify e m = true ↔ FromHost m := by
  have htype : (ByteReader.load16 e 12).eval m.data = beToCpu16 e etherTypeIpv4 :=
    (load16_etherType e m.data _).mpr (isIpv4_iff.mp hframe)
  have hkey : (L2fwd.key e).eval m.data
      = some ((readKey e (beToCpu16 e) (beToCpu32 e) sizeofEtherHdr).eval m.data) := by
    simp [L2fwd.key, htype]
  rw [L2fwd.forwards, hkey]
  simp only [bne_iff_ne]
  rw [L2fwd.ctx, hclassify.single_rule (userdata_aclRule _) (fits_fieldDefs _),
    matches_aclRule_iff, beToCpu32_inj, readKey_proto, readKey_srcIp,
    ByteReader.beToCpu32_load32]
  rfl

/-- The second program reports a match on the TCP frames of that host. -/
lemma Exp.report_iff (hclassify : IsClassify classify) (hframe : isIpv4 m = true) :
    (∃ r ∈ Exp.report classify e m, r.isMatch = true) ↔ FromHost m := by
  have htype : (ByteReader.load16 e 12).eval m.data = beToCpu16 e etherTypeIpv4 :=
    (load16_etherType e m.data _).mpr (isIpv4_iff.mp hframe)
  have hnovlan : ¬beToCpu16 e etherTypeIpv4 = beToCpu16 e etherTypeVlan := by
    rw [beToCpu16_inj]
    decide
  have hkey : (Exp.key e).eval m.data = some ((readKey e id id sizeofEtherHdr).eval m.data) := by
    simp [Exp.key, htype, hnovlan]
  rw [Exp.report, hkey]
  simp only [Option.map_some, Option.mem_some_iff, exists_eq_left', bne_iff_ne]
  rw [Exp.ctx, hclassify.single_rule (userdata_aclRule _) (fits_fieldDefs _),
    matches_aclRule_iff, readKey_proto, readKey_srcIp, id_eq, ByteReader.beToCpu32_load32]
  rfl

/-- **The two programs agree** on every untagged IPv4 frame, on hosts of either
byte order: the first one forwards the frame exactly when the second one reports
a match, and exactly when it is a TCP frame from 172.17.166.200. -/
theorem verdicts_agree (e : Endian) (hclassify : IsClassify classify) (hframe : isIpv4 m = true) :
    (L2fwd.forwards classify e m = true ↔ ∃ r ∈ Exp.report classify e m, r.isMatch = true) ∧
      (L2fwd.forwards classify e m = true ↔ FromHost m) :=
  ⟨(L2fwd.forwards_iff hclassify hframe).trans (Exp.report_iff hclassify hframe).symm,
    L2fwd.forwards_iff hclassify hframe⟩

/-- A TCP frame from 172.17.166.200 to 10.0.0.1. -/
def sampleFrame : Mbuf where
  addr := 0
  dataLen := 54
  data := fun i =>
    [0, 0, 0, 0, 0, 0, 0, 0, 0, 0, 0, 0, 8, 0, 0x45, 0, 0, 40, 0, 0, 0, 0, 64, 6, 0, 0,
      172, 17, 166, 200, 10, 0, 0, 1, 0x30, 0x39, 0, 80].getD i 0

/-- A little-endian and a big-endian host with a classifier: the frame is
forwarded by one program and matched by the other. -/
theorem verdicts_agree_sampleFrame :
    (L2fwd.forwards bestMatch .little sampleFrame = true ↔
      ∃ r ∈ Exp.report bestMatch .little sampleFrame, r.isMatch = true) ∧
    L2fwd.forwards bestMatch .big sampleFrame = true :=
  ⟨(verdicts_agree .little isClassify_bestMatch (by decide)).1,
    (verdicts_agree .big isClassify_bestMatch (by decide)).2.mpr
      (by rw [FromHost]; decide)⟩

end DpdkStarter.Acl
