import DpdkStarter.Acl.Verdict

/-!
`ACL/muti_rule/main.c` and `ACL/dual_rule_implementation/main.c`: the rules of the two
programs with a default rule, and what that matches.

Each kind of field has its own way to say "any": a mask of no bits, no leading bits, and
the range of all ports. `add_rule` compares all bits of the protocol for every rule it
builds, and the wildcard rule of the other program has the range from 0 to 0.

* `Presents`: the fields of a key, which both programs define by `tupleDefs`, are those
  of a 5-tuple.
* `Muti.ctx`, `Dual.ctx`: the rules.
* `matches_iff`: a rule matches field by field.
* `default_rules_iff`: which 5-tuples the default rules match, and which match any
  rule.
* `verdicts_eq`: the verdicts of the two programs.
-/

namespace DpdkStarter.Acl

/-! ### Keys -/

/-- Protocol, addresses and ports of a packet, in host order. -/
structure FiveTuple where
  proto : UInt8
  src : UInt32
  dst : UInt32
  sport : UInt16
  dport : UInt16
  deriving DecidableEq, Repr

/-- The library reads the fields of the tuple in the key. -/
def Presents (defs : List (FieldDef numFields)) (key : List UInt8) (t : FiveTuple) : Prop :=
  defs.map (fun d => d.input key)
    = [t.proto.toNat, t.src.toNat, t.dst.toNat, t.sport.toNat, t.dport.toNat]

/-! ### The two programs -/

namespace Muti

/-- `field_defs`, with the offsets of an IPv4 header without options and of the ports
behind it. -/
def fieldDefs : List (FieldDef numFields) := tupleDefs 9 12 16 sizeofIpv4Hdr (sizeofIpv4Hdr + 2)

/-- `add_rule`. -/
def addRule (proto : UInt8) (src srcMask dst dstMask : UInt32)
    (sportLow sportHigh dportLow dportHigh : UInt16) (priority userdata : UInt32) :
    AclRule numFields where
  priority := priority.toInt32.toInt
  categoryMask := 1
  userdata := userdata
  field := ![⟨proto.toNat, 0xFF⟩, ⟨src.toNat, srcMask.toNat⟩, ⟨dst.toNat, dstMask.toNat⟩,
    ⟨sportLow.toNat, sportHigh.toNat⟩, ⟨dportLow.toNat, dportHigh.toNat⟩]

/-- Rule 1: allow DNS. -/
def dnsRule : AclRule numFields := addRule ipprotoUdp 0 0 0 0 0 65535 53 53 100 1

/-- Rule 2: allow HTTP. -/
def httpRule : AclRule numFields := addRule ipprotoTcp 0 0 0 0 0 65535 80 80 90 2

/-- Rule 3: the default catch-all rule. -/
def defaultRule : AclRule numFields := addRule ipprotoIp 0 0 0 0 0 65535 0 65535 1 0

/-- The context `main` builds. -/
def ctx : AclCtx numFields := ⟨fieldDefs, [dnsRule, httpRule, defaultRule]⟩

end Muti

namespace Dual

/-- `field_defs`, with the offsets of `struct pkt_key`. -/
def fieldDefs : List (FieldDef numFields) := tupleDefs 0 4 8 12 14

/-- Rule 0: allow a specific TCP flow. -/
def flowRule : AclRule numFields where
  priority := 100
  categoryMask := 1
  userdata := 777
  field := ![⟨ipprotoTcp.toNat, 0xFF⟩, ⟨(rteIpv4 140 82 112 21).toNat, 32⟩,
    ⟨(rteIpv4 172 17 166 200).toNat, 32⟩, ⟨443, 443⟩, ⟨42960, 42960⟩]

/-- Rule 1: the default rule, a wildcard. -/
def defaultRule : AclRule numFields where
  priority := 1
  categoryMask := 1
  userdata := 0
  field := fun _ => ⟨0, 0⟩

/-- The context `main` builds. -/
def ctx : AclCtx numFields := ⟨fieldDefs, [flowRule, defaultRule]⟩

end Dual

/-! ### What the rules match -/

/-- **A rule matches field by field.** -/
lemma matches_iff {ctx : AclCtx numFields} {proto src dst sport dport : ℕ}
    (hdefs : ctx.defs = tupleDefs proto src dst sport dport) {r : AclRule numFields}
    (hcategory : r.categoryMask = 1) {key : List UInt8} {t : FiveTuple}
    (hkey : Presents ctx.defs key t) :
    ctx.Matches r key
      ↔ FieldType.bitmask.Matches 1 (r.field 0) t.proto.toNat ∧
        FieldType.mask.Matches 4 (r.field 1) t.src.toNat ∧
        FieldType.mask.Matches 4 (r.field 2) t.dst.toNat ∧
        FieldType.range.Matches 2 (r.field 3) t.sport.toNat ∧
        FieldType.range.Matches 2 (r.field 4) t.dport.toNat := by
  have hmask : r.categoryMask &&& 1 ≠ 0 := by
    rw [hcategory]
    decide
  rw [Presents, hdefs] at hkey
  simp only [tupleDefs, List.map_cons, List.map_nil, List.cons.injEq, and_true] at hkey
  obtain ⟨hproto, hsrc, hdst, hsport, hdport⟩ := hkey
  rw [AclCtx.Matches, and_iff_right hmask, hdefs, tupleDefs]
  simp only [List.forall_mem_cons, hproto, hsrc, hdst, hsport, hdport]
  simp only [List.not_mem_nil, false_implies, implies_true, and_true]

/-- A rule `add_rule` builds for any addresses and source ports. -/
lemma matches_addRule_iff (proto : UInt8) (dportLow dportHigh : UInt16)
    (priority userdata : UInt32) {key : List UInt8} {t : FiveTuple}
    (hkey : Presents Muti.fieldDefs key t) :
    Muti.ctx.Matches
        (Muti.addRule proto 0 0 0 0 0 65535 dportLow dportHigh priority userdata) key
      ↔ t.proto = proto ∧
        FieldType.range.Matches 2 ⟨dportLow.toNat, dportHigh.toNat⟩ t.dport.toNat := by
  rw [matches_iff rfl rfl hkey]
  constructor
  · rintro ⟨hproto, -, -, -, hdport⟩
    exact ⟨(matches_bitmask_full_iff proto t.proto).mp hproto, hdport⟩
  · rintro ⟨hproto, hdport⟩
    exact ⟨(matches_bitmask_full_iff proto t.proto).mpr hproto, matches_mask_none t.src,
      matches_mask_none t.dst, matches_range_all t.sport, hdport⟩

/-- The default rule of the first program asks for protocol 0. -/
lemma Muti.matches_defaultRule_iff {key : List UInt8} {t : FiveTuple}
    (hkey : Presents Muti.fieldDefs key t) :
    Muti.ctx.Matches Muti.defaultRule key ↔ t.proto = ipprotoIp := by
  rw [Muti.defaultRule, matches_addRule_iff _ _ _ _ _ hkey]
  exact and_iff_left (matches_range_all t.dport)

/-- The tuples the rules of the first program match. -/
lemma Muti.exists_matches_iff {key : List UInt8} {t : FiveTuple}
    (hkey : Presents Muti.fieldDefs key t) :
    (∃ r ∈ Muti.ctx.rules, Muti.ctx.Matches r key)
      ↔ t.proto = ipprotoIp ∨ (t.proto = ipprotoUdp ∧ t.dport = 53) ∨
        (t.proto = ipprotoTcp ∧ t.dport = 80) := by
  have hrules : Muti.ctx.rules = [Muti.dnsRule, Muti.httpRule, Muti.defaultRule] := rfl
  have hdns : Muti.ctx.Matches Muti.dnsRule key ↔ t.proto = ipprotoUdp ∧ t.dport = 53 := by
    rw [Muti.dnsRule, matches_addRule_iff _ _ _ _ _ hkey, matches_range_single_iff]
  have hhttp : Muti.ctx.Matches Muti.httpRule key ↔ t.proto = ipprotoTcp ∧ t.dport = 80 := by
    rw [Muti.httpRule, matches_addRule_iff _ _ _ _ _ hkey, matches_range_single_iff]
  simp only [hrules, List.exists_mem_cons_iff, List.not_mem_nil, false_and, exists_false, or_false,
    hdns, hhttp, Muti.matches_defaultRule_iff hkey]
  tauto

/-- The default rule of the second program asks for two ports of 0. -/
lemma Dual.matches_defaultRule_iff {key : List UInt8} {t : FiveTuple}
    (hkey : Presents Dual.fieldDefs key t) :
    Dual.ctx.Matches Dual.defaultRule key ↔ t.sport = 0 ∧ t.dport = 0 := by
  rw [matches_iff rfl rfl hkey]
  constructor
  · rintro ⟨-, -, -, hsport, hdport⟩
    exact ⟨(matches_range_single_iff 0 t.sport).mp hsport,
      (matches_range_single_iff 0 t.dport).mp hdport⟩
  · rintro ⟨hsport, hdport⟩
    exact ⟨matches_bitmask_none 1 t.proto.toNat, matches_mask_none t.src, matches_mask_none t.dst,
      (matches_range_single_iff 0 t.sport).mpr hsport,
      (matches_range_single_iff 0 t.dport).mpr hdport⟩

/-- The flow the second program allows. -/
def allowedFlow : FiveTuple :=
  ⟨ipprotoTcp, rteIpv4 140 82 112 21, rteIpv4 172 17 166 200, 443, 42960⟩

lemma Dual.matches_flowRule_iff {key : List UInt8} {t : FiveTuple}
    (hkey : Presents Dual.fieldDefs key t) :
    Dual.ctx.Matches Dual.flowRule key ↔ t = allowedFlow := by
  have hproto := matches_bitmask_full_iff ipprotoTcp t.proto
  have hsrc := matches_mask_full_iff (rteIpv4 140 82 112 21) t.src
  have hdst := matches_mask_full_iff (rteIpv4 172 17 166 200) t.dst
  have hsport := matches_range_single_iff 443 t.sport
  have hdport := matches_range_single_iff 42960 t.dport
  obtain ⟨proto, src, dst, sport, dport⟩ := t
  rw [matches_iff rfl rfl hkey, allowedFlow, FiveTuple.mk.injEq]
  exact and_congr hproto (and_congr hsrc (and_congr hdst (and_congr hsport hdport)))

/-- The tuples the rules of the second program match. -/
lemma Dual.exists_matches_iff {key : List UInt8} {t : FiveTuple}
    (hkey : Presents Dual.fieldDefs key t) :
    (∃ r ∈ Dual.ctx.rules, Dual.ctx.Matches r key)
      ↔ (t.sport = 0 ∧ t.dport = 0) ∨ t = allowedFlow := by
  have hrules : Dual.ctx.rules = [Dual.flowRule, Dual.defaultRule] := rfl
  simp only [hrules, List.exists_mem_cons_iff, List.not_mem_nil, false_and, exists_false, or_false,
    Dual.matches_flowRule_iff hkey, Dual.matches_defaultRule_iff hkey]
  exact or_comm

/-! ### Keys of every tuple -/

/-- An IPv4 header without options and the ports behind it, with the fields of the
tuple. -/
def Muti.key (t : FiveTuple) : List UInt8 :=
  [0x45, 0, 0, 0, 0, 0, 0, 0, 64, t.proto, 0, 0] ++ bytes32 .big t.src ++ bytes32 .big t.dst
    ++ bytes16 .big t.sport ++ bytes16 .big t.dport

/-- A `struct pkt_key` with the fields of the tuple. -/
def Dual.key (t : FiveTuple) : List UInt8 :=
  PktKey.bytes .big ⟨t.proto, t.src, t.dst, t.sport, t.dport⟩

lemma Dual.presents_key (t : FiveTuple) : Presents Dual.fieldDefs (Dual.key t) t :=
  input_fieldDefs .big ⟨t.proto, t.src, t.dst, t.sport, t.dport⟩

lemma Muti.presents_key (t : FiveTuple) : Presents Muti.fieldDefs (Muti.key t) t :=
  Dual.presents_key t

lemma Muti.fits_key (t : FiveTuple) : Muti.ctx.Fits (Muti.key t) := by
  simp [AclCtx.Fits, Muti.ctx, Muti.fieldDefs, tupleDefs, Muti.key, sizeofIpv4Hdr]

lemma Dual.fits_key (t : FiveTuple) : Dual.ctx.Fits (Dual.key t) := by
  simp [AclCtx.Fits, Dual.ctx, Dual.fieldDefs, tupleDefs, Dual.key]

/-- **What the default rules match.** For every 5-tuple, in whatever key it is presented:
the catch-all rule of the first program matches exactly those of protocol 0, and some
rule exactly these, DNS and HTTP; the wildcard rule of the second program matches
exactly those with both ports 0, and some rule exactly these and the allowed flow. -/
theorem default_rules_iff (t : FiveTuple) :
    (∀ key, Presents Muti.fieldDefs key t →
      ((∃ r ∈ Muti.ctx.rules, Muti.ctx.Matches r key)
          ↔ t.proto = ipprotoIp ∨ (t.proto = ipprotoUdp ∧ t.dport = 53) ∨
            (t.proto = ipprotoTcp ∧ t.dport = 80)) ∧
        (Muti.ctx.Matches Muti.defaultRule key ↔ t.proto = ipprotoIp)) ∧
      ∀ key, Presents Dual.fieldDefs key t →
        ((∃ r ∈ Dual.ctx.rules, Dual.ctx.Matches r key)
            ↔ (t.sport = 0 ∧ t.dport = 0) ∨ t = allowedFlow) ∧
          (Dual.ctx.Matches Dual.defaultRule key ↔ t.sport = 0 ∧ t.dport = 0) :=
  ⟨fun _ hkey => ⟨Muti.exists_matches_iff hkey, Muti.matches_defaultRule_iff hkey⟩,
    fun _ hkey => ⟨Dual.exists_matches_iff hkey, Dual.matches_defaultRule_iff hkey⟩⟩

/-- A DNS lookup has a rule of its own, and the catch-all rule does not match it. -/
theorem default_rules_dns :
    (∃ r ∈ Muti.ctx.rules, Muti.ctx.Matches r (Muti.key ⟨ipprotoUdp, 1, 2, 12345, 53⟩)) ∧
      ¬Muti.ctx.Matches Muti.defaultRule (Muti.key ⟨ipprotoUdp, 1, 2, 12345, 53⟩) := by
  have hrules := (default_rules_iff ⟨ipprotoUdp, 1, 2, 12345, 53⟩).1 _ (Muti.presents_key _)
  exact ⟨hrules.1.mpr (by decide), mt hrules.2.mp (by decide)⟩

/-- A datagram to port 80. -/
def udpOnPort80 : FiveTuple := ⟨ipprotoUdp, rteIpv4 10 0 0 1, rteIpv4 10 0 0 2, 12345, 80⟩

/-- It is matched by no rule of either program. -/
theorem default_rules_miss :
    (¬∃ r ∈ Muti.ctx.rules, Muti.ctx.Matches r (Muti.key udpOnPort80)) ∧
      ¬∃ r ∈ Dual.ctx.rules, Dual.ctx.Matches r (Dual.key udpOnPort80) := by
  rw [Muti.exists_matches_iff (Muti.presents_key udpOnPort80),
    Dual.exists_matches_iff (Dual.presents_key udpOnPort80)]
  decide

/-! ### The verdicts -/

section Verdicts

variable {classify : AclCtx numFields → List UInt8 → UInt32} (hclassify : IsClassify classify)
include hclassify

/-- The answer, when all rules that match have the same `userdata` and no rule has to match
for 0. -/
lemma classify_eq_of_forall {ctx : AclCtx numFields} {key : List UInt8} {v : UInt32}
    (hfits : ctx.Fits key)
    (hall : ∀ r ∈ ctx.rules, ctx.Matches r key → r.userdata = v)
    (hsome : v ≠ 0 → ∃ r ∈ ctx.rules, ctx.Matches r key) : classify ctx key = v := by
  by_cases hhit : ∃ r ∈ ctx.rules, ctx.Matches r key
  · obtain ⟨r, hr, hmatch, -, heq⟩ := hclassify.hit ctx key hfits hhit
    rw [heq, hall r hr hmatch]
  · rw [hclassify.miss ctx key hfits fun r hr hmatch => hhit ⟨r, hr, hmatch⟩]
    exact (not_not.mp (mt hsome hhit)).symm

lemma Muti.classify_eq {key : List UInt8} {t : FiveTuple} (hfits : Muti.ctx.Fits key)
    (hkey : Presents Muti.fieldDefs key t) :
    classify Muti.ctx key
      = if t.proto = ipprotoUdp ∧ t.dport = 53 then 1
        else if t.proto = ipprotoTcp ∧ t.dport = 80 then 2 else 0 := by
  have hdns : Muti.ctx.Matches Muti.dnsRule key ↔ t.proto = ipprotoUdp ∧ t.dport = 53 := by
    rw [Muti.dnsRule, matches_addRule_iff _ _ _ _ _ hkey, matches_range_single_iff]
  have hhttp : Muti.ctx.Matches Muti.httpRule key ↔ t.proto = ipprotoTcp ∧ t.dport = 80 := by
    rw [Muti.httpRule, matches_addRule_iff _ _ _ _ _ hkey, matches_range_single_iff]
  have hdefault := Muti.matches_defaultRule_iff hkey
  refine classify_eq_of_forall hclassify hfits ?_ ?_
  · have hrules : Muti.ctx.rules = [Muti.dnsRule, Muti.httpRule, Muti.defaultRule] := rfl
    simp only [hrules, List.forall_mem_cons, List.not_mem_nil, false_implies, implies_true,
      and_true, hdns, hhttp, hdefault]
    have htcp : t.proto = ipprotoTcp → t.proto ≠ ipprotoUdp := fun h => h ▸ by decide
    have hip : t.proto = ipprotoIp → t.proto ≠ ipprotoUdp ∧ t.proto ≠ ipprotoTcp :=
      fun h => h ▸ by decide
    refine ⟨fun h => (if_pos h).symm, fun h => ?_, fun h => ?_⟩
    · rw [if_neg fun hdns => htcp h.1 hdns.1, if_pos h]
      rfl
    · rw [if_neg fun hdns => (hip h).1 hdns.1, if_neg fun hhttp => (hip h).2 hhttp.1]
      rfl
  · intro hne
    rw [Muti.exists_matches_iff hkey]
    by_contra hnone
    simp only [not_or] at hnone
    rw [if_neg hnone.2.1, if_neg hnone.2.2] at hne
    exact hne rfl

lemma Dual.classify_eq {key : List UInt8} {t : FiveTuple} (hfits : Dual.ctx.Fits key)
    (hkey : Presents Dual.fieldDefs key t) :
    classify Dual.ctx key = if t = allowedFlow then 777 else 0 := by
  have hflow := Dual.matches_flowRule_iff hkey
  have hdefault := Dual.matches_defaultRule_iff hkey
  refine classify_eq_of_forall hclassify hfits ?_ ?_
  · have hrules : Dual.ctx.rules = [Dual.flowRule, Dual.defaultRule] := rfl
    simp only [hrules, List.forall_mem_cons, List.not_mem_nil, false_implies, implies_true,
      and_true, hflow, hdefault]
    refine ⟨fun h => (if_pos h).symm, fun h => ?_⟩
    rw [if_neg (fun heq => absurd h (by rw [heq]; decide))]
    rfl
  · intro hne
    rw [Dual.exists_matches_iff hkey]
    by_contra hnone
    rw [if_neg (not_or.mp hnone).2] at hne
    exact hne rfl

end Verdicts

end DpdkStarter.Acl
