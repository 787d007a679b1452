import DpdkStarter.Library.ByteOrder

/-!
What the access-control programs ask of `rte_acl`.

The library is given field definitions, which say where in a key a field lies and
how it is compared, and rules. It reads the fields of a key as numbers in network
order. With one category, the result for a key is the `userdata` of a matching
rule of the highest priority, or 0 when no rule matches. A key has to have all the
fields.

* `AclCtx.Matches`: a rule matches a key; `AclCtx.Fits`: the fields lie in the key.
* `IsClassify`: a function answers as `rte_acl_classify` does.
* `bestMatch`: a function that does, `isClassify_bestMatch`.
* `IsClassify.single_rule`: the answer for a single rule.
-/

namespace DpdkStarter.Acl

/-- `RTE_ACL_FIELD_TYPE_*`. -/
inductive FieldType where
  | mask | range | bitmask
  deriving DecidableEq, Repr

/-- `struct rte_acl_field_def`, for rules of `n` fields. -/
structure FieldDef (n : ℕ) where
  type : FieldType
  size : ℕ
  fieldIndex : Fin n
  inputIndex : ℕ
  offset : ℕ
  deriving DecidableEq, Repr

/-- `struct rte_acl_field`: the numbers `value` and `mask_range`. -/
structure Field where
  value : ℕ
  maskRange : ℕ
  deriving DecidableEq, Repr

/-- A rule defined by `RTE_ACL_RULE_DEF` with `n` fields. -/
structure AclRule (n : ℕ) where
  priority : ℤ
  categoryMask : UInt32
  userdata : UInt32
  field : Fin n → Field

/-- `struct rte_acl_ctx` after `rte_acl_build`. -/
structure AclCtx (n : ℕ) where
  defs : List (FieldDef n)
  rules : List (AclRule n)

variable {n : ℕ}

/-- The number at the place of a field. -/
def FieldDef.input (d : FieldDef n) (key : List UInt8) : ℕ :=
  beValue ((key.drop d.offset).take d.size)

/-- The comparison of a field of `size` bytes that reads `k`: under the mask, of
the leading `maskRange` bits, or with both ends of a range. -/
def FieldType.Matches : FieldType → ℕ → Field → ℕ → Prop
  | .bitmask, _, f, k => k &&& f.maskRange = f.value &&& f.maskRange
  | .mask, size, f, k => k >>> (8 * size - f.maskRange) = f.value >>> (8 * size - f.maskRange)
  | .range, _, f, k => f.value ≤ k ∧ k ≤ f.maskRange

/-! Comparisons with everything and with one number. -/

lemma matches_bitmask_none (size k : ℕ) : FieldType.bitmask.Matches size ⟨0, 0⟩ k :=
  Nat.and_zero k

lemma matches_bitmask_full_iff (v k : UInt8) :
    FieldType.bitmask.Matches 1 ⟨v.toNat, 0xFF⟩ k.toNat ↔ k = v := by
  have hfull : ∀ b : UInt8, b.toNat &&& 0xFF = b.toNat := by
    intro b
    rw [Nat.and_two_pow_sub_one_eq_mod _ 8]
    exact Nat.mod_eq_of_lt b.toNat_lt
  rw [FieldType.Matches, hfull, hfull, UInt8.toNat_inj]

lemma matches_mask_none (k : UInt32) : FieldType.mask.Matches 4 ⟨0, 0⟩ k.toNat := by
  have hk : k.toNat >>> 32 = 0 := by
    rw [Nat.shiftRight_eq_div_pow]
    exact Nat.div_eq_of_lt k.toNat_lt
  exact hk.trans (Nat.zero_shiftRight 32).symm

lemma matches_mask_full_iff (v k : UInt32) :
    FieldType.mask.Matches 4 ⟨v.toNat, 32⟩ k.toNat ↔ k = v := UInt32.toNat_inj

lemma matches_range_all (k : UInt16) : FieldType.range.Matches 2 ⟨0, 65535⟩ k.toNat :=
  ⟨Nat.zero_le _, Nat.le_of_lt_succ k.toNat_lt⟩

lemma matches_range_single_iff (v k : UInt16) :
    FieldType.range.Matches 2 ⟨v.toNat, v.toNat⟩ k.toNat ↔ k = v := by
  rw [FieldType.Matches, ← le_antisymm_iff, eq_comm, UInt16.toNat_inj]

/-- A rule of the first category matches a key. -/
def AclCtx.Matches (ctx : AclCtx n) (r : AclRule n) (key : List UInt8) : Prop :=
  r.categoryMask &&& 1 ≠ 0 ∧
    ∀ d ∈ ctx.defs, d.type.Matches d.size (r.field d.fieldIndex) (d.input key)

/-- The key is long enough for the fields. -/
def AclCtx.Fits (ctx : AclCtx n) (key : List UInt8) : Prop :=
  ∀ d ∈ ctx.defs, d.offset + d.size ≤ key.length

/-- The function answers as `rte_acl_classify` does for one category. -/
structure IsClassify (classify : AclCtx n → List UInt8 → UInt32) : Prop where
  hit : ∀ ctx key, ctx.Fits key → (∃ r ∈ ctx.rules, ctx.Matches r key) →
    ∃ r ∈ ctx.rules, ctx.Matches r key ∧
      (∀ r' ∈ ctx.rules, ctx.Matches r' key → r'.priority ≤ r.priority) ∧
      classify ctx key = r.userdata
  miss : ∀ ctx key, ctx.Fits key → (∀ r ∈ ctx.rules, ¬ctx.Matches r key) → classify ctx key = 0

/-- With a single rule, which has a `userdata`, the answer says whether it matches. -/
lemma IsClassify.single_rule {classify : AclCtx n → List UInt8 → UInt32}
    (h : IsClassify classify) {defs : List (FieldDef n)} {r : AclRule n} (hr : r.userdata ≠ 0)
    {key : List UInt8} (hfits : AclCtx.Fits ⟨defs, [r]⟩ key) :
    classify ⟨defs, [r]⟩ key ≠ 0 ↔ AclCtx.Matches ⟨defs, [r]⟩ r key := by
  constructor
  · intro hne
    by_contra hmiss
    refine hne (h.miss ⟨defs, [r]⟩ key hfits ?_)
    intro r' hr'
    rwa [List.mem_singleton.mp hr']
  · intro hmatch
    obtain ⟨r', hr', -, -, heq⟩ :=
      h.hit ⟨defs, [r]⟩ key hfits ⟨r, List.mem_singleton_self r, hmatch⟩
    rw [heq, List.mem_singleton.mp hr']
    exact hr

/-! ### A classifier -/

instance : ∀ (type : FieldType) size f k, Decidable (type.Matches size f k)
  | .bitmask, _, _, _ => inferInstanceAs (Decidable (_ = _))
  | .mask, _, _, _ => inferInstanceAs (Decidable (_ = _))
  | .range, _, _, _ => inferInstanceAs (Decidable (_ ∧ _))

instance (ctx : AclCtx n) (r : AclRule n) (key : List UInt8) : Decidable (ctx.Matches r key) :=
  inferInstanceAs (Decidable (_ ∧ ∀ d ∈ ctx.defs, _))

/-- A rule of the highest priority. -/
def highest : List (AclRule n) → Option (AclRule n)
  | [] => none
  | r :: rs =>
      match highest rs with
      | none => some r
      | some best => if r.priority ≤ best.priority then some best else some r

/-- There is one among the rules of a list that is not empty. -/
lemma exists_highest {rs : List (AclRule n)} (h : rs ≠ []) :
    ∃ best ∈ rs, highest rs = some best ∧ ∀ r ∈ rs, r.priority ≤ best.priority := by
  induction rs with
  | nil => exact absurd rfl h
  | cons r rs ih =>
      by_cases hrs : rs = []
      · refine ⟨r, List.mem_cons_self, by rw [hrs]; rfl, ?_⟩
        simp [hrs]
      · obtain ⟨best, hin, hbest, hle⟩ := ih hrs
        rw [highest, hbest]
        by_cases hr : r.priority ≤ best.priority
        · exact ⟨best, List.mem_cons_of_mem r hin, if_pos hr, List.forall_mem_cons.mpr ⟨hr, hle⟩⟩
        · refine ⟨r, List.mem_cons_self, if_neg hr, List.forall_mem_cons.mpr ⟨le_rfl, ?_⟩⟩
          exact fun r' hr' => (hle r' hr').trans (not_le.mp hr).le

/-- The `userdata` of a matching rule of the highest priority. -/
def bestMatch (ctx : AclCtx n) (key : List UInt8) : UInt32 :=
  (highest (ctx.rules.filter fun r => ctx.Matches r key)).elim 0 AclRule.userdata

/-- It answers as `rte_acl_classify` does. -/
lemma isClassify_bestMatch : IsClassify (bestMatch (n := n)) where
  hit := by
    rintro ctx key - ⟨r, hr, hmatch⟩
    have hmem : r ∈ ctx.rules.filter fun r => ctx.Matches r key := by simp [hr, hmatch]
    obtain ⟨best, hin, hbest, hle⟩ := exists_highest (List.ne_nil_of_mem hmem)
    simp only [List.mem_filter, decide_eq_true_eq] at hin hle
    refine ⟨best, hin.1, hin.2, ?_, by rw [bestMatch, hbest]; rfl⟩
    exact fun r' hr' hmatch' => hle r' ⟨hr', hmatch'⟩
  miss := by
    intro ctx key _ hmiss
    have hnone : (ctx.rules.filter fun r => ctx.Matches r key) = [] := by
      simpa [List.filter_eq_nil_iff] using hmiss
    rw [bestMatch, hnone]
    rfl

end DpdkStarter.Acl
