import DpdkStarter.Library.AddressBlocks
import DpdkStarter.LpmRouter.MainLoop

/-!
The routes of `longest_prefix_match_lpm/simple/main.c` and `ipv4table/main.c`.

The table is that of `rte_lpm`, which is not part of the repository: it is a parameter, a
lookup in the table that a sequence of `rte_lpm_add` leaves, and is assumed to do what its
documentation says: `IsLpm`. That is about rules the library accepts (`Admissible`), as
those of the two programs are.

* `initLpm`, `ipv4Table`: the routes of the two programs.
* `nextHopOf`, `tableHopOf`: the next hop by the octets of the address.
* `lookup_initLpm`, `lookup_ipv4Table`: the tables answer with them, for every address.
* `router_prints_routes`: what the router prints and sends in a run.
-/

namespace DpdkStarter.LpmRouter

open Machine AddressBlocks Ledger

/-- What `rte_lpm_add` is given. -/
abbrev Rule := Block 32 × UInt32

/-- A call of `rte_lpm_add`. -/
def route (ip : UInt32) (depth : Fin 33) (hop : UInt32) : Rule :=
  (⟨ip.toNat, depth, Nat.le_of_lt_succ depth.isLt⟩, hop)

/-- The routes `init_lpm` adds. -/
def initLpm : List Rule :=
  [route (rteIpv4 10 1 2 0) 24 1, route (rteIpv4 10 1 0 0) 16 2, route (rteIpv4 192 0 0 0) 8 3,
    route (rteIpv4 172 0 0 0) 4 4]

/-- The routes of `ipv4table`. -/
def ipv4Table : List Rule :=
  [route (rteIpv4 10 0 0 0) 8 1, route (rteIpv4 10 1 0 0) 16 2, route (rteIpv4 10 1 1 0) 24 3]

/-- `max_rules` of both programs. -/
def maxRules : ℕ := 1024

/-- `number_tbl8s` of both programs. -/
def numberTbl8s : ℕ := 256

/-- Rules that `rte_lpm_add` takes one after the other: the depth is not 0, the next hop
fits the 24 bits of an entry, and neither the rules nor the groups that rules deeper than
24 bits need run out. -/
structure Admissible (rules : List Rule) : Prop where
  length_le : rules.length ≤ maxRules
  tbl8s_le : rules.countP (fun r => 24 < r.1.depth) ≤ numberTbl8s
  depth_pos : ∀ r ∈ rules, 0 < r.1.depth
  hop_lt : ∀ r ∈ rules, r.2.toNat < 2 ^ 24

lemma Admissible.perm {rules rules' : List Rule} (h : Admissible rules)
    (hperm : rules.Perm rules') : Admissible rules' where
  length_le := hperm.length_eq ▸ h.length_le
  tbl8s_le := hperm.countP_eq _ ▸ h.tbl8s_le
  depth_pos r hr := h.depth_pos r (hperm.mem_iff.mpr hr)
  hop_lt r hr := h.hop_lt r (hperm.mem_iff.mpr hr)

lemma admissible_initLpm : Admissible initLpm := by
  constructor <;> decide

lemma admissible_ipv4Table : Admissible ipv4Table := by
  constructor <;> decide

/-- `rte_lpm_lookup` after those calls of `rte_lpm_add`: the next hop of the deepest rule
that covers the address, a later rule for a block in place of the earlier one. -/
def IsLpm (lookup : List Rule → UInt32 → Option UInt32) : Prop :=
  ∀ rules, Admissible rules → ∀ dst,
    lookup rules dst = (best (addAll rules) dst.toNat).map Prod.snd

/-- Such a function. -/
def lpmLookup (rules : List Rule) (dst : UInt32) : Option UInt32 :=
  (best (addAll rules) dst.toNat).map Prod.snd

lemma isLpm_lpmLookup : IsLpm lpmLookup := fun _ _ _ => rfl

/-! ### The answers -/

/-- The next hop of the router, by the octets of the address. A depth of 4 leaves the lower
half of the first octet open. -/
def nextHopOf (dst : UInt32) : Option UInt32 :=
  let a := dst.toNat / 2 ^ 24
  let b := dst.toNat / 2 ^ 16 % 256
  let c := dst.toNat / 2 ^ 8 % 256
  if a = 10 ∧ b = 1 then if c = 2 then some 1 else some 2
  else if a = 192 then some 3
  else if 160 ≤ a ∧ a < 176 then some 4
  else none

/-- The next hop of `ipv4table`, by the octets of the address. -/
def tableHopOf (dst : UInt32) : Option UInt32 :=
  let a := dst.toNat / 2 ^ 24
  let b := dst.toNat / 2 ^ 16 % 256
  let c := dst.toNat / 2 ^ 8 % 256
  if a = 10 then if b = 1 then if c = 1 then some 3 else some 2 else some 1 else none

section Lookup

variable {lookup : List Rule → UInt32 → Option UInt32} (hlpm : IsLpm lookup) {rules : List Rule}
  (hrules : Admissible rules) (hdistinct : Distinct rules) {dst : UInt32}

include hlpm hrules hdistinct

/-- The answer is the hop of the deepest rule. -/
lemma lookup_eq_some {r : Rule} (hr : r ∈ rules) (hcovers : r.1.Covers dst.toNat)
    (hdeepest : ∀ s ∈ rules, s.1.Covers dst.toNat → s.1.depth ≤ r.1.depth) :
    lookup rules dst = some r.2 := by
  have hbest : best (addAll rules) dst.toNat = some r := by
    refine (best_eq_some_iff (distinct_addAll rules)).mpr ?_
    exact ⟨(mem_addAll hdistinct).mpr hr, hcovers,
      fun s hs => hdeepest s ((mem_addAll hdistinct).mp hs)⟩
  rw [hlpm rules hrules, hbest]
  rfl

/-- There is no answer without a rule for the address. -/
lemma lookup_eq_none (hnone : ∀ s ∈ rules, ¬s.1.Covers dst.toNat) : lookup rules dst = none := by
  have hbest : best (addAll rules) dst.toNat = none :=
    best_eq_none_iff.mpr fun s hs => hnone s ((mem_addAll hdistinct).mp hs)
  rw [hlpm rules hrules, hbest]
  rfl

end Lookup

/-- The first bits of an address, for each depth that occurs. -/
lemma covers_route {a : ℕ} {ip : UInt32} {depth : Fin 33} {hop : UInt32} :
    (route ip depth hop).1.Covers a
      ↔ a / 2 ^ (32 - depth.val) = ip.toNat / 2 ^ (32 - depth.val) := Iff.rfl

lemma distinct_initLpm : Distinct initLpm := by
  unfold Distinct
  decide

lemma distinct_ipv4Table : Distinct ipv4Table := by
  unfold Distinct
  decide

/-- **The routes of the router** for every address, in whatever order they are added. -/
lemma lookup_initLpm {lookup : List Rule → UInt32 → Option UInt32} (hlpm : IsLpm lookup)
    {rules : List Rule} (hrules : rules.Perm initLpm) (dst : UInt32) :
    lookup rules dst = nextHopOf dst := by
  have hlt := dst.toNat_lt
  have hperm : lookup rules dst = lookup initLpm dst := by
    rw [hlpm rules (admissible_initLpm.perm hrules.symm), hlpm initLpm admissible_initLpm,
      best_addAll_perm (distinct_initLpm.perm hrules.symm) hrules]
  have hcovers : ∀ a,
      ((route (rteIpv4 10 1 2 0) 24 1).1.Covers a ↔ a / 256 = 655618) ∧
      ((route (rteIpv4 10 1 0 0) 16 2).1.Covers a ↔ a / 65536 = 2561) ∧
      ((route (rteIpv4 192 0 0 0) 8 3).1.Covers a ↔ a / 16777216 = 192) ∧
      ((route (rteIpv4 172 0 0 0) 4 4).1.Covers a ↔ a / 268435456 = 10) :=
    fun a => ⟨covers_route, covers_route, covers_route, covers_route⟩
  obtain ⟨h24, h16, h8, h4⟩ := hcovers dst.toNat
  have hall : ∀ n, (∀ s ∈ initLpm, s.1.Covers dst.toNat → s.1.depth ≤ n)
      ↔ (dst.toNat / 256 = 655618 → 24 ≤ n) ∧ (dst.toNat / 65536 = 2561 → 16 ≤ n) ∧
        (dst.toNat / 16777216 = 192 → 8 ≤ n) ∧ (dst.toNat / 268435456 = 10 → 4 ≤ n) := by
    intro n
    simp only [initLpm, List.forall_mem_cons, List.not_mem_nil, false_implies, implies_true,
      and_true, h24, h16, h8, h4]
    rfl
  rw [hperm, nextHopOf]
  split_ifs with hab hc h192 h160
  · exact lookup_eq_some hlpm admissible_initLpm distinct_initLpm
      (r := route (rteIpv4 10 1 2 0) 24 1) (by simp [initLpm])
      (h24.mpr (by omega)) ((hall 24).mpr (by omega))
  · exact lookup_eq_some hlpm admissible_initLpm distinct_initLpm
      (r := route (rteIpv4 10 1 0 0) 16 2) (by simp [initLpm])
      (h16.mpr (by omega)) ((hall 16).mpr (by omega))
  · exact lookup_eq_some hlpm admissible_initLpm distinct_initLpm
      (r := route (rteIpv4 192 0 0 0) 8 3) (by simp [initLpm])
      (h8.mpr (by omega)) ((hall 8).mpr (by omega))
  · exact lookup_eq_some hlpm admissible_initLpm distinct_initLpm
      (r := route (rteIpv4 172 0 0 0) 4 4) (by simp [initLpm])
      (h4.mpr (by omega)) ((hall 4).mpr (by omega))
  · refine lookup_eq_none hlpm admissible_initLpm distinct_initLpm ?_
    simp only [initLpm, List.forall_mem_cons, List.not_mem_nil, false_implies, implies_true,
      and_true, h24, h16, h8, h4]
    omega

/-- **The routes of the other program**: each inside the one before it. -/
lemma lookup_ipv4Table {lookup : List Rule → UInt32 → Option UInt32} (hlpm : IsLpm lookup)
    {rules : List Rule} (hrules : rules.Perm ipv4Table) (dst : UInt32) :
    lookup rules dst = tableHopOf dst := by
  have hlt := dst.toNat_lt
  have hperm : lookup rules dst = lookup ipv4Table dst := by
    rw [hlpm rules (admissible_ipv4Table.perm hrules.symm), hlpm ipv4Table admissible_ipv4Table,
      best_addAll_perm (distinct_ipv4Table.perm hrules.symm) hrules]
  have hcovers : ∀ a,
      ((route (rteIpv4 10 0 0 0) 8 1).1.Covers a ↔ a / 16777216 = 10) ∧
      ((route (rteIpv4 10 1 0 0) 16 2).1.Covers a ↔ a / 65536 = 2561) ∧
      ((route (rteIpv4 10 1 1 0) 24 3).1.Covers a ↔ a / 256 = 655617) :=
    fun a => ⟨covers_route, covers_route, covers_route⟩
  obtain ⟨h8, h16, h24⟩ := hcovers dst.toNat
  have hall : ∀ n, (∀ s ∈ ipv4Table, s.1.Covers dst.toNat → s.1.depth ≤ n)
      ↔ (dst.toNat / 16777216 = 10 → 8 ≤ n) ∧ (dst.toNat / 65536 = 2561 → 16 ≤ n) ∧
        (dst.toNat / 256 = 655617 → 24 ≤ n) := by
    intro n
    simp only [ipv4Table, List.forall_mem_cons, List.not_mem_nil, false_implies, implies_true,
      and_true, h24, h16, h8]
    rfl
  rw [hperm, tableHopOf]
  split_ifs with ha hb hc
  · exact lookup_eq_some hlpm admissible_ipv4Table distinct_ipv4Table
      (r := route (rteIpv4 10 1 1 0) 24 3) (by simp [ipv4Table])
      (h24.mpr (by omega)) ((hall 24).mpr (by omega))
  · exact lookup_eq_some hlpm admissible_ipv4Table distinct_ipv4Table
      (r := route (rteIpv4 10 1 0 0) 16 2) (by simp [ipv4Table])
      (h16.mpr (by omega)) ((hall 16).mpr (by omega))
  · exact lookup_eq_some hlpm admissible_ipv4Table distinct_ipv4Table
      (r := route (rteIpv4 10 0 0 0) 8 1) (by simp [ipv4Table])
      (h8.mpr (by omega)) ((hall 8).mpr (by omega))
  · refine lookup_eq_none hlpm admissible_ipv4Table distinct_ipv4Table ?_
    simp only [ipv4Table, List.forall_mem_cons, List.not_mem_nil, false_implies, implies_true,
      and_true, h24, h16, h8]
    omega

/-! ### The router -/

/-- What the router prints for a frame. -/
def lineOf (m : Mbuf) : Line :=
  if isIpv4 m then
    let dst := (ByteReader.be32 (sizeofEtherHdr + 16)).eval m.data
    match nextHopOf dst with
    | some hop => .nextHop dst hop
    | none => .noRoute dst
  else .notIpv4

/-- The frames of a burst that are offered and accepted. -/
def Input.passing (inp : Input) : List Mbuf :=
  (inp.burst.filter fun f => isIpv4 f.item && f.accepted).map Offer.item

/-- The body of the loop prints the line of the frame, and sends it whatever the route. -/
lemma forward_routes {lookup : List Rule → UInt32 → Option UInt32} (hlpm : IsLpm lookup)
    {rules : List Rule} (hrules : rules.Perm initLpm) (f : Frame) (s : State) :
    forward (lookup rules) f s = { s with
      printed := s.printed ++ [lineOf f.item]
      nic := s.nic ++ if isIpv4 f.item && f.accepted then [f.item] else [] } := by
  have hroute := lookup_initLpm hlpm hrules
  rw [forward, lineOf]
  cases hip : isIpv4 f.item with
  | false => simp
  | true =>
      simp only [if_true, hroute, State.txBurst, Bool.true_and]
      cases nextHopOf ((ByteReader.be32 (sizeofEtherHdr + 16)).eval f.item.data) <;>
        cases f.accepted <;> simp

/-- One iteration prints the lines of the burst and sends the frames that pass. -/
lemma iterate_routes {lookup : List Rule → UInt32 → Option UInt32} (hlpm : IsLpm lookup)
    {rules : List Rule} (hrules : rules.Perm initLpm) (inp : Input) (s : State) :
    (iterate (lookup rules) inp s).printed
        = s.printed ++ inp.burst.map (fun f => lineOf f.item) ∧
      (iterate (lookup rules) inp s).nic = s.nic ++ inp.passing := by
  have hburst : ∀ (burst : List Frame) (s : State),
      (run (forward (lookup rules)) burst s).printed
          = s.printed ++ burst.map (fun f => lineOf f.item) ∧
        (run (forward (lookup rules)) burst s).nic
          = s.nic ++ (burst.filter fun f => isIpv4 f.item && f.accepted).map Offer.item := by
    intro burst
    induction burst with
    | nil => simp
    | cons f burst ih =>
        intro s
        obtain ⟨hprinted, hnic⟩ := ih (forward (lookup rules) f s)
        rw [run_cons, hprinted, hnic, forward_routes hlpm hrules]
        refine ⟨by simp, ?_⟩
        rw [List.filter_cons]
        split <;> simp
  exact hburst inp.burst s

/-- **The routes in a run.** For every library that behaves as documented, in whatever order
`init_lpm` adds its routes and whatever the bursts, the router prints for each frame, in
order, the next hop of the deepest of the four routes that covers its destination, or that
there is none; but the answer decides nothing else: the frames sent are the IPv4 frames the
device accepts, in order, those without a route among them. The nested routes of `ipv4table`
answer with the innermost one that covers the address. -/
theorem router_prints_routes (lookup : List Rule → UInt32 → Option UInt32) (hlpm : IsLpm lookup)
    (rules : List Rule) (hrules : rules.Perm initLpm) (inputs : List Input) :
    (reached (lookup rules) inputs).printed = (received inputs).map lineOf ∧
    (reached (lookup rules) inputs).nic = inputs.flatMap Input.passing ∧
    ∀ rules', rules'.Perm ipv4Table → ∀ dst, lookup rules' dst = tableHopOf dst := by
  have hrun : ∀ s : State,
      (run (iterate (lookup rules)) inputs s).printed
          = s.printed ++ (received inputs).map lineOf ∧
        (run (iterate (lookup rules)) inputs s).nic
          = s.nic ++ inputs.flatMap Input.passing := by
    induction inputs with
    | nil => simp [received]
    | cons inp inputs ih =>
        intro s
        obtain ⟨hprinted, hnic⟩ := ih (iterate (lookup rules) inp s)
        obtain ⟨hprinted', hnic'⟩ := iterate_routes hlpm hrules inp s
        rw [run_cons, hprinted, hnic, hprinted', hnic']
        refine ⟨?_, by rw [List.flatMap_cons, List.append_assoc]⟩
        simp [received, List.map_flatMap, Function.comp_def]
  exact ⟨(hrun State.init).1, (hrun State.init).2,
    fun _ hrules' dst => lookup_ipv4Table hlpm hrules' dst⟩

/-- A frame to an address that only the shortest prefix covers. -/
def toFirstOctet165 : Input := ⟨[⟨frame 34 (List.replicate 12 0 ++ [0x08, 0x00]
  ++ List.replicate 16 0 ++ [165, 9, 9, 9]), true⟩], by decide⟩

/-- It is routed like one to 172.0.0.0. -/
theorem router_prints_routes_165 :
    (reached (lpmLookup initLpm.reverse) [toFirstOctet165]).printed
      = [.nextHop (rteIpv4 165 9 9 9) 4] := by
  rw [(router_prints_routes lpmLookup isLpm_lpmLookup initLpm.reverse (List.reverse_perm _)
    [toFirstOctet165]).1]
  decide

end DpdkStarter.LpmRouter
