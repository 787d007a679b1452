import DpdkStarter.Library.Run
import DpdkStarter.PacketChange.Operations

/-!
The edits of a packet, on two levels, and the changes of `packet_change/main.c` and
`mempool_membuff/append_prependops.c` again, which are a sequence of four edits.

A packet in a buffer has ends that move and bytes that are stored. What it stands for is a list
of bytes with room in front and behind, and an edit puts bytes to a list or takes some from it.

* `Packet`, `Edit.apply`: the edits of a list of bytes with room.
* `Edit.exec`: the edits of a packet in its buffer, by the functions of DPDK.
* `exec_refines`: an edit of the buffer is the edit of the list; `runEdits_refines`: so is any
  sequence, the refused ones included.
* `byEdits`: the changes as the sequence `changes` of edits; `changeMbuf_eq_byEdits`: so both
  programs make them, and `changeMbuf_refines`: on the list they come out the same.
* `edits_refine`: the sequences of edits, those of the two programs among them.
* `edited`, `operationsOn_snd`: what `operations` leaves of a list of bytes.
* `operations_result`: the bytes and the room after `operations`, and what it prints.
-/

namespace DpdkStarter.PacketChange

open Machine

/-- A packet without its buffer: its bytes, and the room in front of them and behind. -/
structure Packet where
  headroom : ℕ
  data : List UInt8
  tailroom : ℕ
  deriving DecidableEq

/-- An edit, with the bytes it stores or the number of bytes it takes away. -/
inductive Edit where
  | append (bs : List UInt8)
  | prepend (bs : List UInt8)
  | adj (len : ℕ)
  | trim (len : ℕ)

/-- The edit of the list; `none` when there is no room, or there are not so many bytes. -/
def Edit.apply : Edit → Packet → Option Packet
  | .append bs, p =>
      if bs.length ≤ p.tailroom then
        some ⟨p.headroom, p.data ++ bs, p.tailroom - bs.length⟩
      else none
  | .prepend bs, p =>
      if bs.length ≤ p.headroom then
        some ⟨p.headroom - bs.length, bs ++ p.data, p.tailroom⟩
      else none
  | .adj len, p =>
      if len ≤ p.data.length then some ⟨p.headroom + len, p.data.drop len, p.tailroom⟩ else none
  | .trim len, p =>
      if len ≤ p.data.length then
        some ⟨p.headroom, p.data.take (p.data.length - len), p.tailroom + len⟩
      else none

/-- The edit in the buffer: the bytes are stored where the function says. -/
def Edit.exec (api : PktmbufApi) : Edit → Segment → Option Segment
  | .append bs, m => (api.append m bs.length).map fun r => r.2.put r.1 bs
  | .prepend bs, m => (api.prepend m bs.length).map fun r => r.2.put r.1 bs
  | .adj len, m => api.adj m len
  | .trim len, m => api.trim m len

/-- What a packet in a buffer stands for. -/
def Segment.toPacket (m : Segment) : Packet := ⟨m.headroom, m.data, m.tailroom⟩

/-! ### One edit -/

@[simp] lemma Segment.length_data (m : Segment) : m.data.length = m.dataLen := length_slice _ _ _

/-- The data and the room behind them end with the buffer. -/
lemma Segment.tailroom_eq (m : Segment) : m.dataOff + m.dataLen + m.tailroom = m.bufLen := by
  have hinside := m.inside
  rw [Segment.tailroom]
  omega

lemma Segment.toPacket_eq {m : Segment} {headroom tailroom : ℕ} {data : List UInt8}
    (hoff : m.dataOff = headroom) (hdata : m.data = data)
    (htail : m.dataOff + m.dataLen + tailroom = m.bufLen) :
    m.toPacket = ⟨headroom, data, tailroom⟩ := by
  have htailroom : m.tailroom = tailroom := by
    rw [Segment.tailroom]
    omega
  rw [Segment.toPacket, Segment.headroom, hoff, hdata, htailroom]

section Refines

variable {api : PktmbufApi} (hapi : api.Documented)
include hapi

lemma exec_append (bs : List UInt8) (m : Segment) :
    ((Edit.append bs).exec api m).map Segment.toPacket = (Edit.append bs).apply m.toPacket := by
  have htotal := m.tailroom_eq
  by_cases hroom : bs.length ≤ m.tailroom
  · obtain ⟨m', hgrant, hmoved⟩ := hapi.append_granted m bs.length hroom
    have hdata : (m'.put (m.dataOff + m.dataLen) bs).data = m.data ++ bs := by
      rw [Segment.data, Segment.buf_put, Segment.dataOff_put, Segment.dataLen_put,
        hmoved.dataOff_eq, hmoved.dataLen_eq, slice_add, slice_putBytes,
        slice_putBytes_of_disjoint (Or.inl le_rfl), hmoved.buf_eq, Segment.data]
    rw [Edit.exec, hgrant, Edit.apply, Segment.toPacket, if_pos hroom]
    refine congrArg some (Segment.toPacket_eq hmoved.dataOff_eq hdata ?_)
    have hlen : (m'.put (m.dataOff + m.dataLen) bs).bufLen = m.bufLen := hmoved.bufLen_eq
    rw [Segment.dataOff_put, Segment.dataLen_put, hmoved.dataOff_eq, hmoved.dataLen_eq, hlen]
    dsimp only at hroom ⊢
    omega
  · rw [Edit.exec, hapi.append_refused m bs.length (not_le.mp hroom), Edit.apply, Segment.toPacket,
      if_neg hroom]
    rfl

lemma exec_prepend (bs : List UInt8) (m : Segment) :
    ((Edit.prepend bs).exec api m).map Segment.toPacket = (Edit.prepend bs).apply m.toPacket := by
  have htotal := m.tailroom_eq
  by_cases hroom : bs.length ≤ m.headroom
  · obtain ⟨m', hgrant, hmoved⟩ := hapi.prepend_granted m bs.length hroom
    have hstart : m.dataOff - bs.length + bs.length = m.dataOff := Nat.sub_add_cancel hroom
    have hdata : (m'.put (m.dataOff - bs.length) bs).data = bs ++ m.data := by
      rw [Segment.data, Segment.buf_put, Segment.dataOff_put, Segment.dataLen_put,
        hmoved.dataOff_eq, hmoved.dataLen_eq, Nat.add_comm m.dataLen, slice_add, slice_putBytes,
        hstart, slice_putBytes_of_disjoint (Or.inr hstart.le), hmoved.buf_eq, Segment.data]
    rw [Edit.exec, hgrant, Edit.apply, Segment.toPacket, if_pos hroom]
    refine congrArg some (Segment.toPacket_eq hmoved.dataOff_eq hdata ?_)
    have hlen : (m'.put (m.dataOff - bs.length) bs).bufLen = m.bufLen := hmoved.bufLen_eq
    rw [Segment.headroom] at hroom
    rw [Segment.dataOff_put, Segment.dataLen_put, hmoved.dataOff_eq, hmoved.dataLen_eq, hlen]
    dsimp only
    omega
  · rw [Edit.exec, hapi.prepend_refused m bs.length (not_le.mp hroom), Edit.apply,
      Segment.toPacket, if_neg hroom]
    rfl

lemma exec_adj (len : ℕ) (m : Segment) :
    ((Edit.adj len).exec api m).map Segment.toPacket = (Edit.adj len).apply m.toPacket := by
  have htotal := m.tailroom_eq
  by_cases hlen : len ≤ m.dataLen
  · obtain ⟨m', hgrant, hmoved⟩ := hapi.adj_granted m len hlen
    have hdata : m'.data = m.data.drop len := by
      obtain ⟨rest, hrest⟩ := Nat.exists_eq_add_of_le hlen
      rw [Segment.data, Segment.data, hmoved.buf_eq, hmoved.dataOff_eq, hmoved.dataLen_eq, hrest,
        slice_add, Nat.add_sub_cancel_left]
      exact (List.drop_left' (length_slice _ _ _)).symm
    rw [Edit.exec, hgrant, Edit.apply, Segment.toPacket, Segment.length_data, if_pos hlen]
    refine congrArg some (Segment.toPacket_eq hmoved.dataOff_eq hdata ?_)
    rw [hmoved.dataOff_eq, hmoved.dataLen_eq, hmoved.bufLen_eq]
    dsimp only
    omega
  · rw [Edit.exec, hapi.adj_refused m len (not_le.mp hlen), Edit.apply, Segment.toPacket,
      if_neg (by rwa [Segment.length_data])]
    rfl

lemma exec_trim (len : ℕ) (m : Segment) :
    ((Edit.trim len).exec api m).map Segment.toPacket = (Edit.trim len).apply m.toPacket := by
  have htotal := m.tailroom_eq
  by_cases hlen : len ≤ m.dataLen
  · obtain ⟨m', hgrant, hmoved⟩ := hapi.trim_granted m len hlen
    have hdata : m'.data = m.data.take (m.dataLen - len) := by
      obtain ⟨rest, hrest⟩ := Nat.exists_eq_add_of_le' hlen
      rw [Segment.data, Segment.data, hmoved.buf_eq, hmoved.dataOff_eq, hmoved.dataLen_eq, hrest,
        slice_add, Nat.add_sub_cancel]
      exact (List.take_left' (length_slice _ _ _)).symm
    rw [Edit.exec, hgrant, Edit.apply, Segment.toPacket, Segment.length_data, if_pos hlen]
    refine congrArg some (Segment.toPacket_eq hmoved.dataOff_eq hdata ?_)
    rw [hmoved.dataOff_eq, hmoved.dataLen_eq, hmoved.bufLen_eq]
    dsimp only
    omega
  · rw [Edit.exec, hapi.trim_refused m len (not_le.mp hlen), Edit.apply, Segment.toPacket,
      if_neg (by rwa [Segment.length_data])]
    rfl

/-- **An edit in the buffer is the edit of the list**, and is refused when that is. -/
lemma exec_refines (e : Edit) (m : Segment) :
    (e.exec api m).map Segment.toPacket = e.apply m.toPacket := by
  cases e with
  | append bs => exact exec_append hapi bs m
  | prepend bs => exact exec_prepend hapi bs m
  | adj len => exact exec_adj hapi len m
  | trim len => exact exec_trim hapi len m

lemma toPacket_getD (e : Edit) (m : Segment) :
    ((e.exec api m).getD m).toPacket = (e.apply m.toPacket).getD m.toPacket := by
  rw [← exec_refines hapi, Option.getD_map]

end Refines

/-! ### Sequences of edits -/

/-- A sequence of edits, and which were granted; one that is refused changes nothing. -/
def runEdits {σ : Type*} (edit : Edit → σ → Option σ) : List Edit → σ → List Bool × σ
  | [], s => ([], s)
  | e :: es, s =>
      let done := runEdits edit es ((edit e s).getD s)
      ((edit e s).isSome :: done.1, done.2)

/-- The bytes of the buffer. -/
def Packet.size (p : Packet) : ℕ := p.headroom + p.data.length + p.tailroom

lemma size_apply (e : Edit) (p : Packet) : ((e.apply p).getD p).size = p.size := by
  cases e with
  | append bs =>
      rw [Edit.apply]
      split
      · rw [Option.getD_some, Packet.size, Packet.size, List.length_append]
        dsimp only
        omega
      · rfl
  | prepend bs =>
      rw [Edit.apply]
      split
      · rw [Option.getD_some, Packet.size, Packet.size, List.length_append]
        dsimp only
        omega
      · rfl
  | adj len =>
      rw [Edit.apply]
      split
      · rw [Option.getD_some, Packet.size, Packet.size, List.length_drop]
        dsimp only
        omega
      · rfl
  | trim len =>
      rw [Edit.apply]
      split
      · rw [Option.getD_some, Packet.size, Packet.size, List.length_take]
        dsimp only
        omega
      · rfl

lemma size_runEdits (es : List Edit) (p : Packet) : (runEdits Edit.apply es p).2.size = p.size := by
  induction es generalizing p with
  | nil => rfl
  | cons e es ih => exact (ih ((e.apply p).getD p)).trans (size_apply e p)

lemma Segment.size_toPacket (m : Segment) : m.toPacket.size = m.bufLen := by
  rw [← m.tailroom_eq, ← m.length_data]
  rfl

section Runs

variable {api : PktmbufApi} (hapi : api.Documented)
include hapi

lemma isSome_exec (e : Edit) (m : Segment) :
    (e.exec api m).isSome = (e.apply m.toPacket).isSome := by
  rw [← exec_refines hapi, Option.isSome_map]

/-- **A sequence of edits in the buffer is that sequence on the list**: the same edits are
granted, and the packets come out the same. -/
lemma runEdits_refines (es : List Edit) (m : Segment) :
    (runEdits (Edit.exec api) es m).1 = (runEdits Edit.apply es m.toPacket).1 ∧
      (runEdits (Edit.exec api) es m).2.toPacket = (runEdits Edit.apply es m.toPacket).2 := by
  induction es generalizing m with
  | nil => exact ⟨rfl, rfl⟩
  | cons e es ih =>
      obtain ⟨hgranted, hpacket⟩ := ih ((e.exec api m).getD m)
      rw [toPacket_getD hapi] at hgranted hpacket
      rw [runEdits, runEdits, isSome_exec hapi, hgranted]
      exact ⟨rfl, hpacket⟩

end Runs

/-! ### The changes as edits -/

/-- What is printed of a packet. -/
def Packet.sizes (p : Packet) : Sizes :=
  ⟨p.headroom, p.data.length, p.data.length, p.headroom, p.tailroom⟩

lemma Segment.sizes_toPacket (m : Segment) : m.toPacket.sizes = m.sizes := by
  rw [Packet.sizes, Segment.toPacket, Segment.length_data]
  rfl

/-- The edits both programs make. -/
def changes : List Edit := [.append msg, .prepend hdrBytes, .adj 5, .trim 4]

/-- The texts, in order. -/
def Labels.texts (labels : Labels) : List String :=
  [labels.initial, labels.append, labels.prepend, labels.adj, labels.trim]

/-- The changes as a sequence of edits, of which the first has to be granted: the sizes are
printed before it and after each edit. -/
def byEdits {σ : Type*} (edit : Edit → σ → Option σ) (sizes : σ → Sizes) (labels : Labels)
    (s : σ) : List (String × Sizes) × Option σ :=
  if (edit (.append msg) s).isSome then
    (labels.texts.zip (changes.inits.map fun es => sizes (runEdits edit es s).2),
      some (runEdits edit changes s).2)
  else ([(labels.initial, sizes s)], none)

/-- **Both programs make these edits.** -/
lemma changeMbuf_eq_byEdits (labels : Labels) (api : PktmbufApi) (m : Segment) :
    changeMbuf labels api m = byEdits (Edit.exec api) Segment.sizes labels m := by
  have hheader : ∀ m, addHeader api m = ((Edit.prepend hdrBytes).exec api m).getD m := by
    intro m
    rw [addHeader, Edit.exec, hdrBytes, List.length_replicate]
    cases api.prepend m 10 <;> rfl
  rw [changeMbuf, byEdits, Edit.exec]
  cases happend : api.append m msg.length with
  | none => rfl
  | some r =>
      have hfirst : ((Edit.append msg).exec api m).getD m = r.2.put r.1 msg := by
        rw [Edit.exec, happend]
        rfl
      simp only [hheader, Option.map_some, Option.isSome_some, if_true, changes, Labels.texts,
        List.inits, List.map_cons, List.map_nil, runEdits, hfirst]
      rfl

/-- **Any sequence of edits** of a packet in its buffer is that sequence on its bytes: the same
edits are granted, the bytes and the room come out the same, and the buffer is used up neither
more nor less. What the two programs do is such a sequence. -/
theorem edits_refine {api : PktmbufApi} (hapi : api.Documented) (es : List Edit) (m : Segment) :
    (runEdits (Edit.exec api) es m).1 = (runEdits Edit.apply es m.toPacket).1 ∧
      (runEdits (Edit.exec api) es m).2.toPacket = (runEdits Edit.apply es m.toPacket).2 ∧
      (runEdits Edit.apply es m.toPacket).2.size = m.bufLen ∧
      operations api m = byEdits (Edit.exec api) Segment.sizes operationsLabels m ∧
      appendPrependops api m = byEdits (Edit.exec api) Segment.sizes appendPrependopsLabels m := by
  obtain ⟨hgranted, hpacket⟩ := runEdits_refines hapi es m
  exact ⟨hgranted, hpacket, (size_runEdits es m.toPacket).trans m.size_toPacket,
    changeMbuf_eq_byEdits operationsLabels api m,
    changeMbuf_eq_byEdits appendPrependopsLabels api m⟩

/-- A header in front, and bytes taken from both ends; the second header has no room. -/
theorem edits_refine_headers :
    (runEdits (Edit.exec pktmbuf) [.prepend (List.replicate 100 0), .trim 60,
        .prepend (List.replicate 100 0)] (segment 128 60 1988 (by decide))).1
      = [true, true, false] := by
  have hrefine := (edits_refine documented_pktmbuf [.prepend (List.replicate 100 0), .trim 60,
    .prepend (List.replicate 100 0)] (segment 128 60 1988 (by decide))).1
  exact hrefine.trans (by decide +kernel)

/-- `operations` on a list of bytes with room. -/
def operationsOn : Packet → List (String × Sizes) × Option Packet :=
  byEdits Edit.apply Packet.sizes operationsLabels

/-- **The changes of a buffer are the changes of its bytes**, with what is printed. -/
lemma changeMbuf_refines {api : PktmbufApi} (hapi : api.Documented) (labels : Labels)
    (m : Segment) :
    ((changeMbuf labels api m).1, (changeMbuf labels api m).2.map Segment.toPacket)
      = byEdits Edit.apply Packet.sizes labels m.toPacket := by
  have hsizes : ∀ es, (runEdits (Edit.exec api) es m).2.sizes
      = (runEdits Edit.apply es m.toPacket).2.sizes := fun es => by
    rw [← (runEdits_refines hapi es m).2, Segment.sizes_toPacket]
  rw [changeMbuf_eq_byEdits, byEdits, byEdits, isSome_exec hapi]
  split
  · simp only [hsizes, Option.map_some, (runEdits_refines hapi changes m).2]
  · simp only [Option.map_none, Segment.sizes_toPacket]

/-- What is left of the packet does not depend on what is printed. -/
lemma snd_changeMbuf (labels labels' : Labels) (api : PktmbufApi) (m : Segment) :
    (changeMbuf labels api m).2 = (changeMbuf labels' api m).2 := by
  rw [changeMbuf, changeMbuf]
  cases api.append m msg.length <;> rfl

/-- The edits behind the append take five bytes in front and the last four of the message. -/
lemma adj_trim_apply (h t : ℕ) {front : List UInt8} (hfront : 5 ≤ front.length) :
    ((Edit.trim 4).apply (((Edit.adj 5).apply ⟨h, front ++ msg.drop 6, t⟩).getD
        ⟨h, front ++ msg.drop 6, t⟩)).getD
      (((Edit.adj 5).apply ⟨h, front ++ msg.drop 6, t⟩).getD ⟨h, front ++ msg.drop 6, t⟩)
      = ⟨h + 5, front.drop 5, t + 4⟩ := by
  have hback : (msg.drop 6).length = 4 := rfl
  have hadj : (Edit.adj 5).apply ⟨h, front ++ msg.drop 6, t⟩
      = some ⟨h + 5, front.drop 5 ++ msg.drop 6, t⟩ := by
    rw [Edit.apply, if_pos (by rw [List.length_append]; omega),
      List.drop_append_of_le_length hfront]
  have htrim : (Edit.trim 4).apply ⟨h + 5, front.drop 5 ++ msg.drop 6, t⟩
      = some ⟨h + 5, front.drop 5, t + 4⟩ := by
    rw [Edit.apply, if_pos (by rw [List.length_append]; omega), List.length_append, hback,
      Nat.add_sub_cancel, List.take_left' rfl]
  rw [hadj, Option.getD_some, htrim, Option.getD_some]

/-- What is left of a packet with room for the message. -/
def edited (p : Packet) : Packet :=
  if 10 ≤ p.headroom then
    ⟨p.headroom - 5, List.replicate 5 0x48 ++ (p.data ++ msg.take 6), p.tailroom - 6⟩
  else ⟨p.headroom + 5, (p.data ++ msg.take 6).drop 5, p.tailroom - 6⟩

/-- The function ends the process without ten bytes of room behind, and edits the packet with
them. -/
lemma operationsOn_snd (p : Packet) :
    (operationsOn p).2 = if 10 ≤ p.tailroom then some (edited p) else none := by
  have hmsg : msg.length = 10 := rfl
  by_cases hroom : 10 ≤ p.tailroom
  · have happend : (Edit.append msg).apply p
        = some ⟨p.headroom, (p.data ++ msg.take 6) ++ msg.drop 6, p.tailroom - 10⟩ := by
      rw [Edit.apply, hmsg, if_pos hroom, List.append_assoc, List.take_append_drop]
    have hfront : 5 ≤ (p.data ++ msg.take 6).length := by
      rw [List.length_append, List.length_take, hmsg]
      omega
    have hedits : (operationsOn p).2 = some (runEdits Edit.apply changes p).2 := by
      rw [operationsOn, byEdits, happend]
      rfl
    rw [hedits, if_pos hroom, edited]
    simp only [changes, runEdits, happend, Option.getD_some]
    by_cases hhead : 10 ≤ p.headroom
    · have hprepend : (Edit.prepend hdrBytes).apply
            ⟨p.headroom, (p.data ++ msg.take 6) ++ msg.drop 6, p.tailroom - 10⟩
          = some ⟨p.headroom - 10, (hdrBytes ++ (p.data ++ msg.take 6)) ++ msg.drop 6,
              p.tailroom - 10⟩ := by
        rw [Edit.apply, hdrBytes, List.length_replicate, if_pos hhead]
        simp only [List.append_assoc]
      have hhdr : 5 ≤ hdrBytes.length := by decide
      have hlong : 5 ≤ (hdrBytes ++ (p.data ++ msg.take 6)).length := by
        rw [List.length_append]
        omega
      simp only [hprepend, Option.getD_some, adj_trim_apply _ _ hlong, if_pos hhead]
      rw [List.drop_append_of_le_length hhdr]
      refine congrArg some ?_
      rw [Packet.mk.injEq]
      exact ⟨by omega, rfl, by omega⟩
    · have hprepend : (Edit.prepend hdrBytes).apply
            ⟨p.headroom, (p.data ++ msg.take 6) ++ msg.drop 6, p.tailroom - 10⟩ = none := by
        rw [Edit.apply, hdrBytes, List.length_replicate, if_neg hhead]
      simp only [hprepend, Option.getD_none, adj_trim_apply _ _ hfront, if_neg hhead]
      refine congrArg some ?_
      rw [Packet.mk.injEq]
      exact ⟨rfl, rfl, by omega⟩
  · have hnone : (Edit.append msg).apply p = none := by
      rw [Edit.apply, hmsg, if_neg hroom]
    rw [operationsOn, byEdits, hnone, if_neg hroom]
    rfl

/-- **What the function leaves of a packet.** For every packet of a single segment: without
ten bytes of room behind it the process ends; with ten bytes of room in front, the payload
stands between five bytes `'H'` and `"DPDK-M"`; without them, the first five bytes are lost.
And it prints what it prints on the list of bytes. The other program leaves the same, and
prints as much under its own texts. -/
theorem operations_result {api : PktmbufApi} (hapi : api.Documented) (m : Segment) :
    (operations api m).2.map Segment.toPacket
        = (if 10 ≤ m.tailroom then
            some (if 10 ≤ m.headroom then
              ⟨m.headroom - 5, List.replicate 5 0x48 ++ (m.data ++ msg.take 6), m.tailroom - 6⟩
            else ⟨m.headroom + 5, (m.data ++ msg.take 6).drop 5, m.tailroom - 6⟩)
          else none) ∧
      (operations api m).1 = (operationsOn m.toPacket).1 ∧
      (appendPrependops api m).2 = (operations api m).2 ∧
      (appendPrependops api m).1
        = (byEdits Edit.apply Packet.sizes appendPrependopsLabels m.toPacket).1 := by
  have hrefines := changeMbuf_refines hapi operationsLabels m
  refine ⟨?_, congrArg Prod.fst hrefines, snd_changeMbuf _ _ api m,
    congrArg Prod.fst (changeMbuf_refines hapi appendPrependopsLabels m)⟩
  calc (operations api m).2.map Segment.toPacket
      = (operationsOn m.toPacket).2 := congrArg Prod.snd hrefines
    _ = if 10 ≤ m.toPacket.tailroom then some (edited m.toPacket) else none :=
        operationsOn_snd m.toPacket

/-- A packet just allocated, in a buffer of the default size. -/
theorem operations_result_fresh :
    (operations pktmbuf (segment 128 0 2048 (by decide))).2.map Segment.toPacket
      = some ⟨123, List.replicate 5 0x48 ++ msg.take 6, 2042⟩ :=
  (operations_result documented_pktmbuf (segment 128 0 2048 (by decide))).1.trans (by decide)

end DpdkStarter.PacketChange
