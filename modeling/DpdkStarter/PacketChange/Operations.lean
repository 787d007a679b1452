import DpdkStarter.Library.ByteProgram

/-!
`packet_change/main.c`: `operations`, which grows and shrinks a packet at both ends. The `main`
of `mempool_membuff/append_prependops.c` does the same with a packet it has just allocated,
and prints it under other texts.

The functions that move the ends of the data belong to DPDK: they are a parameter,
with what their documentation says. Each of them refuses what there is no room for,
or no data, and then changes nothing. `operations` ends the process when the append is
refused, goes on when the prepend is, and takes from the front all the same.

* `Segment`: a packet of a single segment, inside its buffer.
* `PktmbufApi`, `PktmbufApi.Documented`: the functions of DPDK; `pktmbuf`: such
  functions.
* `operations`, `appendPrependops`: the two, with what they print.
* `operations_spec`: where the data lie afterwards.
* `operations_keeps_iff`: the packets whose payload is kept.
* `operations_by_room`: what the function does by the room there is.
-/

namespace DpdkStarter.PacketChange

/-- A packet of a single segment: the data are `dataLen` bytes from `dataOff` on, and lie
in its buffer. -/
structure Segment where
  bufLen : ℕ
  dataOff : ℕ
  dataLen : ℕ
  buf : ℕ → UInt8
  bufLen_lt : bufLen < 65536
  inside : dataOff + dataLen ≤ bufLen

namespace Segment

/-- `rte_pktmbuf_headroom`. -/
def headroom (m : Segment) : ℕ := m.dataOff

/-- `rte_pktmbuf_tailroom`. -/
def tailroom (m : Segment) : ℕ := m.bufLen - (m.dataOff + m.dataLen)

/-- The data. -/
def data (m : Segment) : List UInt8 := slice m.buf m.dataOff m.dataLen

/-- Bytes stored in the buffer, by `memcpy` or `memset`. -/
def put (m : Segment) (i : ℕ) (bs : List UInt8) : Segment := { m with buf := putBytes m.buf i bs }

@[simp] lemma buf_put (m : Segment) (i : ℕ) (bs : List UInt8) :
    (m.put i bs).buf = putBytes m.buf i bs := rfl

@[simp] lemma dataOff_put (m : Segment) (i : ℕ) (bs : List UInt8) :
    (m.put i bs).dataOff = m.dataOff := rfl

@[simp] lemma dataLen_put (m : Segment) (i : ℕ) (bs : List UInt8) :
    (m.put i bs).dataLen = m.dataLen := rfl

/-- The same buffer with its data in another place. -/
structure Moved (m m' : Segment) (off len : ℕ) : Prop where
  buf_eq : m'.buf = m.buf
  bufLen_eq : m'.bufLen = m.bufLen
  dataOff_eq : m'.dataOff = off
  dataLen_eq : m'.dataLen = len

end Segment

/-! ### The functions of DPDK -/

/-- `rte_pktmbuf_append`, `rte_pktmbuf_prepend`, `rte_pktmbuf_adj` and
`rte_pktmbuf_trim`: the place of the new bytes where there are some, and the packet;
`none` for a refusal. -/
structure PktmbufApi where
  append : Segment → ℕ → Option (ℕ × Segment)
  prepend : Segment → ℕ → Option (ℕ × Segment)
  adj : Segment → ℕ → Option Segment
  trim : Segment → ℕ → Option Segment

/-- The functions do what is documented. -/
structure PktmbufApi.Documented (api : PktmbufApi) : Prop where
  append_refused : ∀ m len, m.tailroom < len → api.append m len = none
  append_granted : ∀ m len, len ≤ m.tailroom →
    ∃ m', api.append m len = some (m.dataOff + m.dataLen, m') ∧
      m.Moved m' m.dataOff (m.dataLen + len)
  prepend_refused : ∀ m len, m.headroom < len → api.prepend m len = none
  prepend_granted : ∀ m len, len ≤ m.headroom →
    ∃ m', api.prepend m len = some (m.dataOff - len, m') ∧
      m.Moved m' (m.dataOff - len) (m.dataLen + len)
  adj_refused : ∀ m len, m.dataLen < len → api.adj m len = none
  adj_granted : ∀ m len, len ≤ m.dataLen →
    ∃ m', api.adj m len = some m' ∧ m.Moved m' (m.dataOff + len) (m.dataLen - len)
  trim_refused : ∀ m len, m.dataLen < len → api.trim m len = none
  trim_granted : ∀ m len, len ≤ m.dataLen →
    ∃ m', api.trim m len = some m' ∧ m.Moved m' m.dataOff (m.dataLen - len)

/-- Functions that do. -/
def pktmbuf : PktmbufApi where
  append m len :=
    if h : m.dataOff + (m.dataLen + len) ≤ m.bufLen then
      some (m.dataOff + m.dataLen, { m with dataLen := m.dataLen + len, inside := h })
    else none
  prepend m len :=
    if h : len ≤ m.dataOff then
      some (m.dataOff - len, { m with
        dataOff := m.dataOff - len
        dataLen := m.dataLen + len
        inside := by have := m.inside; omega })
    else none
  adj m len :=
    if h : len ≤ m.dataLen then
      some { m with
        dataOff := m.dataOff + len
        dataLen := m.dataLen - len
        inside := by have := m.inside; omega }
    else none
  trim m len :=
    if h : len ≤ m.dataLen then
      some { m with
        dataLen := m.dataLen - len
        inside := by have := m.inside; omega }
    else none

lemma documented_pktmbuf : pktmbuf.Documented where
  append_refused m len h := dif_neg (by rw [Segment.tailroom] at h; omega)
  append_granted m len h := by
    have hinside := m.inside
    have hroom : m.dataOff + (m.dataLen + len) ≤ m.bufLen := by
      rw [Segment.tailroom] at h
      omega
    exact ⟨_, dif_pos hroom, rfl, rfl, rfl, rfl⟩
  prepend_refused m len h := dif_neg (not_le.mpr h)
  prepend_granted m len h := ⟨_, dif_pos h, rfl, rfl, rfl, rfl⟩
  adj_refused m len h := dif_neg (not_le.mpr h)
  adj_granted m len h := ⟨_, dif_pos h, rfl, rfl, rfl, rfl⟩
  trim_refused m len h := dif_neg (not_le.mpr h)
  trim_granted m len h := ⟨_, dif_pos h, rfl, rfl, rfl, rfl⟩

/-! ### The function -/

/-- What is printed of a packet; the packet length is that of its one segment. -/
structure Sizes where
  dataOff : ℕ
  dataLen : ℕ
  pktLen : ℕ
  headroom : ℕ
  tailroom : ℕ
  deriving DecidableEq, Repr

/-- The sizes of a packet. -/
def Segment.sizes (m : Segment) : Sizes := ⟨m.dataOff, m.dataLen, m.dataLen, m.headroom, m.tailroom⟩

/-- `"DPDK-MBUF"` with the byte that ends it. -/
def msg : List UInt8 := [0x44, 0x50, 0x44, 0x4B, 0x2D, 0x4D, 0x42, 0x55, 0x46, 0]

/-- The ten bytes `'H'` of the header. -/
def hdrBytes : List UInt8 := List.replicate 10 0x48

/-- The prepend, with the header stored where it is granted. -/
def addHeader (api : PktmbufApi) (m : Segment) : Segment :=
  match api.prepend m 10 with
  | none => m
  | some (hdr, m') => m'.put hdr hdrBytes

/-- The texts over the five states that are printed. -/
structure Labels where
  initial : String
  append : String
  prepend : String
  adj : String
  trim : String

/-- The changes both programs make: what is printed, and the packet; `none` when the process
leaves through `rte_exit` with `Append failed`. -/
def changeMbuf (labels : Labels) (api : PktmbufApi) (m : Segment) :
    List (String × Sizes) × Option Segment :=
  match api.append m msg.length with
  | none => ([(labels.initial, m.sizes)], none)
  | some (data, m₀) =>
      let m₁ := m₀.put data msg
      let m₂ := addHeader api m₁
      let m₃ := (api.adj m₂ 5).getD m₂
      let m₄ := (api.trim m₃ 4).getD m₃
      ([(labels.initial, m.sizes), (labels.append, m₁.sizes), (labels.prepend, m₂.sizes),
        (labels.adj, m₃.sizes), (labels.trim, m₄.sizes)], some m₄)

/-- The texts of `operations`. -/
def operationsLabels : Labels where
  initial := "\nInitial Mbuf State\n"
  append := "\nAfter Append(" ++ toString msg.length ++ " bytes) \n"
  prepend := "\nAfter Prepend(10 bytes)\n"
  adj := "\n After Adj(5 bytes removed)\n"
  trim := "\nAfter Trim(4 bytes)\n"

/-- `operations`. -/
def operations : PktmbufApi → Segment → List (String × Sizes) × Option Segment :=
  changeMbuf operationsLabels

/-- The texts of `append_prependops.c`. -/
def appendPrependopsLabels : Labels where
  initial := "\n=== Initial Mbuf State ===\n"
  append := "\n=== After Append(" ++ toString msg.length ++ " bytes) ===\n"
  prepend := "\n=== After Prepend(10 bytes) ===\n"
  adj := "\n=== After Adj(5 bytes removed) ===\n"
  trim := "\n=== After Trim(4 bytes) ===\n"

/-- `main` of `append_prependops.c`, from the packet it allocated to the one it frees. -/
def appendPrependops : PktmbufApi → Segment → List (String × Sizes) × Option Segment :=
  changeMbuf appendPrependopsLabels

/-! ### What it does to the payload -/

/-- Every byte of the payload is still where it was, and among the data. -/
def Keeps (m m' : Segment) : Prop :=
  ∀ i, m.dataOff ≤ i → i < m.dataOff + m.dataLen →
    m'.dataOff ≤ i ∧ i < m'.dataOff + m'.dataLen ∧ m'.buf i = m.buf i

/-- A payload that is kept is a part of the data, in one piece. -/
lemma Keeps.data_isInfix {m m' : Segment} (h : Keeps m m') : m.data <:+: m'.data := by
  rcases Nat.eq_zero_or_pos m.dataLen with hzero | hpos
  · rw [Segment.data, hzero]
    exact List.nil_infix
  · have hfirst := h m.dataOff le_rfl (by omega)
    have hlast := h (m.dataOff + m.dataLen - 1) (by omega) (by omega)
    obtain ⟨before, hbefore⟩ := Nat.exists_eq_add_of_le hfirst.1
    obtain ⟨rest, hrest⟩ : ∃ rest, m'.dataLen = before + m.dataLen + rest :=
      Nat.exists_eq_add_of_le (by omega)
    have hpayload : slice m'.buf m.dataOff m.dataLen = slice m.buf m.dataOff m.dataLen :=
      slice_congr fun i hle hlt => (h i hle hlt).2.2
    refine ⟨slice m'.buf m'.dataOff before, slice m'.buf (m'.dataOff + (before + m.dataLen)) rest,
      ?_⟩
    rw [Segment.data, Segment.data, hrest, slice_add, slice_add, ← hbefore, hpayload]

section Spec

variable {api : PktmbufApi} (hapi : api.Documented) (m : Segment)

include hapi

/-- Taking five bytes from the front and four from the back. -/
lemma adj_trim {m : Segment} (hlen : 9 ≤ m.dataLen) :
    ∃ m₃ m₄, api.adj m 5 = some m₃ ∧ api.trim m₃ 4 = some m₄ ∧
      m.Moved m₄ (m.dataOff + 5) (m.dataLen - 9) := by
  obtain ⟨m₃, hadj, hfront⟩ := hapi.adj_granted m 5 (by omega)
  have hlen₃ := hfront.dataLen_eq
  obtain ⟨m₄, htrim, hback⟩ := hapi.trim_granted m₃ 4 (by omega)
  refine ⟨m₃, m₄, hadj, htrim, ?_, ?_, ?_, ?_⟩
  · rw [hback.buf_eq, hfront.buf_eq]
  · rw [hback.bufLen_eq, hfront.bufLen_eq]
  · rw [hback.dataOff_eq, hfront.dataOff_eq]
  · rw [hback.dataLen_eq, hfront.dataLen_eq]
    omega

/-- With room in front the header goes there, and writes nothing behind. -/
lemma addHeader_granted {m : Segment} (hhead : 10 ≤ m.headroom) :
    (addHeader api m).dataOff + 10 = m.dataOff ∧ (addHeader api m).dataLen = m.dataLen + 10 ∧
      ∀ i, m.dataOff ≤ i → (addHeader api m).buf i = m.buf i := by
  obtain ⟨m', hprepend, hfront⟩ := hapi.prepend_granted m 10 hhead
  have hheader : addHeader api m = m'.put (m.dataOff - 10) hdrBytes := by rw [addHeader, hprepend]
  rw [Segment.headroom] at hhead
  rw [hheader]
  refine ⟨?_, hfront.dataLen_eq, fun i hi => ?_⟩
  · rw [Segment.dataOff_put, hfront.dataOff_eq]
    omega
  · have hbehind : m.dataOff - 10 + hdrBytes.length ≤ i := by
      rw [hdrBytes, List.length_replicate]
      omega
    rw [Segment.buf_put, putBytes_of_notMem (Or.inr hbehind), hfront.buf_eq]

lemma addHeader_refused {m : Segment} (hhead : m.headroom < 10) : addHeader api m = m := by
  rw [addHeader, hapi.prepend_refused m 10 hhead]

/-- Without room for the message the process ends. -/
lemma operations_exit {m : Segment} (htail : m.tailroom < 10) : (operations api m).2 = none := by
  have hrefused : api.append m msg.length = none := hapi.append_refused m msg.length htail
  rw [operations, changeMbuf, hrefused]

/-- **Where the data lie afterwards**, when there is room for the message: the payload
is not written to, and the data begin five bytes before it when there was room in front
of it, and five bytes behind its first byte otherwise. -/
lemma operations_spec {m : Segment} (htail : 10 ≤ m.tailroom) :
    ∃ m', (operations api m).2 = some m' ∧
      (∀ i, m.dataOff ≤ i → i < m.dataOff + m.dataLen → m'.buf i = m.buf i) ∧
      m'.dataOff + 5 = (if 10 ≤ m.headroom then m.dataOff else m.dataOff + 10) ∧
      m'.dataLen = if 10 ≤ m.headroom then m.dataLen + 11 else m.dataLen + 1 := by
  obtain ⟨m₀, happend, hback⟩ := hapi.append_granted m msg.length htail
  obtain ⟨m₁, hm₁⟩ : ∃ m₁, m₁ = m₀.put (m.dataOff + m.dataLen) msg := ⟨_, rfl⟩
  have hoff : m₁.dataOff = m.dataOff := by rw [hm₁, Segment.dataOff_put, hback.dataOff_eq]
  have hlen : m₁.dataLen = m.dataLen + 10 := by
    rw [hm₁, Segment.dataLen_put, hback.dataLen_eq]
    rfl
  have hpayload : ∀ i < m.dataOff + m.dataLen, m₁.buf i = m.buf i := by
    intro i hi
    rw [hm₁, Segment.buf_put, putBytes_of_notMem (Or.inl hi), hback.buf_eq]
  have hlong : 9 ≤ (addHeader api m₁).dataLen := by
    rcases lt_or_ge m₁.headroom 10 with hhead | hhead
    · rw [addHeader_refused hapi hhead]
      omega
    · rw [(addHeader_granted hapi hhead).2.1]
      omega
  obtain ⟨m₃, m₄, hadj, htrim, hmoved⟩ := adj_trim hapi hlong
  have hdone : (operations api m).2 = some m₄ := by
    rw [operations, changeMbuf, happend]
    simp only [← hm₁, hadj, htrim, Option.getD_some]
  have hoff₄ := hmoved.dataOff_eq
  have hlen₄ := hmoved.dataLen_eq
  refine ⟨m₄, hdone, ?_⟩
  by_cases hhead : 10 ≤ m.headroom
  · have hhead₁ : 10 ≤ m₁.headroom := by rwa [Segment.headroom, hoff]
    obtain ⟨hoff₂, hlen₂, hbuf₂⟩ := addHeader_granted hapi hhead₁
    rw [if_pos hhead, if_pos hhead]
    refine ⟨fun i hle hlt => ?_, by omega, by omega⟩
    rw [hmoved.buf_eq, hbuf₂ i (by omega), hpayload i hlt]
  · have hhead₁ : m₁.headroom < 10 := by
      rw [Segment.headroom, hoff]
      exact not_le.mp hhead
    rw [addHeader_refused hapi hhead₁] at hoff₄ hlen₄ hmoved
    rw [if_neg hhead, if_neg hhead]
    refine ⟨fun i _ hlt => ?_, by omega, by omega⟩
    rw [hmoved.buf_eq, hpayload i hlt]

/-- **The packets whose payload is kept**: those with room for the message behind them,
and room for the header in front or no payload at all. -/
lemma operations_keeps_iff (m : Segment) :
    (∃ m', (operations api m).2 = some m' ∧ Keeps m m')
      ↔ 10 ≤ m.tailroom ∧ (10 ≤ m.headroom ∨ m.dataLen = 0) := by
  rcases lt_or_ge m.tailroom 10 with htail | htail
  · rw [operations_exit hapi htail]
    refine iff_of_false ?_ fun h => absurd h.1 (not_le.mpr htail)
    rintro ⟨m', hm', -⟩
    cases hm'
  · obtain ⟨m', hdone, hbuf, hoff, hlen⟩ := operations_spec hapi htail
    rw [and_iff_right htail, hdone]
    constructor
    · rintro ⟨m'', hm'', hkeeps⟩
      obtain rfl := Option.some.inj hm''
      by_contra hnot
      rw [not_or] at hnot
      rw [if_neg hnot.1] at hoff
      -- the first byte of the payload is before the data
      have hfirst := (hkeeps m.dataOff le_rfl (by omega)).1
      omega
    · intro hroom
      refine ⟨m', rfl, fun i hle hlt => ⟨?_, ?_, hbuf i hle hlt⟩⟩
      all_goals
        split at hoff
        · rename_i hhead
          rw [if_pos hhead] at hlen
          omega
        · rename_i hhead
          have hempty : m.dataLen = 0 := hroom.resolve_left hhead
          omega

end Spec

/-- **What the function does by the room there is.** For every packet of a single
segment, with any headroom, tailroom and data: with less than ten bytes behind the data
it leaves through `rte_exit`; otherwise it returns, and then, if there were ten bytes in
front of the data or the packet was empty, every byte of the payload is where it was,
and the payload is a part of the data in one piece. -/
theorem operations_by_room {api : PktmbufApi} (hapi : api.Documented) (m : Segment) :
    ((operations api m).2 = none ↔ m.tailroom < 10) ∧
      (10 ≤ m.tailroom → 10 ≤ m.headroom ∨ m.dataLen = 0 →
        ∃ m', (operations api m).2 = some m' ∧ Keeps m m' ∧ m.data <:+: m'.data) := by
  constructor
  · constructor
    · intro hnone
      by_contra htail
      obtain ⟨m', hdone, -⟩ := operations_spec hapi (not_lt.mp htail)
      rw [hdone] at hnone
      cases hnone
    · exact operations_exit hapi
  · intro htail hhead
    obtain ⟨m', hdone, hkeeps⟩ := (operations_keeps_iff hapi m).mpr ⟨htail, hhead⟩
    exact ⟨m', hdone, hkeeps, hkeeps.data_isInfix⟩

/-- A packet of so many bytes with such room around it. -/
def segment (headroom dataLen tailroom : ℕ) (h : headroom + dataLen + tailroom < 65536) :
    Segment where
  bufLen := headroom + dataLen + tailroom
  dataOff := headroom
  dataLen := dataLen
  buf := fun i => UInt8.ofNat i
  bufLen_lt := h
  inside := by omega

theorem operations_by_room_default :
    ∃ m', (operations pktmbuf (segment 128 60 1988 (by decide))).2 = some m' ∧
      Keeps (segment 128 60 1988 (by decide)) m' :=
  have hroom := (operations_by_room documented_pktmbuf (segment 128 60 1988 (by decide))).2
    (by decide) (Or.inl (by decide))
  hroom.imp fun _ h => ⟨h.1, h.2.1⟩

/-- A packet that fills its buffer ends the process. -/
theorem operations_exits_full :
    ¬∀ (api : PktmbufApi) (m : Segment), api.Documented →
      ∃ m', (operations api m).2 = some m' ∧ Keeps m m' := by
  intro h
  have hkeeps := h pktmbuf (segment 128 2048 0 (by decide)) documented_pktmbuf
  exact absurd ((operations_keeps_iff documented_pktmbuf _).mp hkeeps).1 (by decide)

end DpdkStarter.PacketChange
