import DpdkStarter.StaticNat.Transport

/-!
`NAT/static_nat/main.c`: what `simulate_nat` does to a frame it has translated, and to
the answer to one.

The port sends back to the wire it listens on, so a frame may come round again. No
rule applies to what the function leaves, and the checksum is that of the same header.
None of this needs to know what `rte_ipv4_cksum` computes.

* `source_simulateNat`, `destination_simulateNat`: the addresses it leaves.
* `simulateNat_twice`: the second time nothing changes.
* `simulateNat_stable`: that, which bytes change at all, which addresses never leave
  the function, and how an exchange is mapped.
-/

namespace DpdkStarter.StaticNat

open ByteProgram

section Addresses

variable {rteIpv4Cksum : ByteReader UInt16} {e : Endian} {m : Mbuf} (hipv4 : isIpv4 m)

include hipv4

lemma source_simulateNat :
    source (simulateNat rteIpv4Cksum e m).2.data
      = mapped privateIp publicIp (source m.data) := by
  refine be32_of_slice ((slice_congr fun j hj _ => ?_).trans (slice_cleared_srcAddr m.data))
  exact simulateNat_data_of_notMem hipv4 (Or.inr hj)

lemma destination_simulateNat :
    destination (simulateNat rteIpv4Cksum e m).2.data
      = mapped publicIp privateIp (destination m.data) := by
  refine be32_of_slice ((slice_congr fun j hj _ => ?_).trans (slice_cleared_dstAddr m.data))
  exact simulateNat_data_of_notMem hipv4 (Or.inr (Nat.le_trans (by decide) hj))

/-- It stays an IPv4 frame. -/
lemma isIpv4_simulateNat : isIpv4 (simulateNat rteIpv4Cksum e m).2 := by
  rw [isIpv4, etherType, ByteReader.eval_be16,
    simulateNat_data_beside hipv4 (Or.inl (by decide)),
    simulateNat_data_beside hipv4 (Or.inl (by decide))]
  exact hipv4

lemma source_ne_privateIp : source (simulateNat rteIpv4Cksum e m).2.data ≠ privateIp := by
  rw [source_simulateNat hipv4, mapped]
  split
  · decide
  · assumption

lemma destination_ne_publicIp :
    destination (simulateNat rteIpv4Cksum e m).2.data ≠ publicIp := by
  rw [destination_simulateNat hipv4, mapped]
  split
  · decide
  · assumption

/-- No rule translates what the function leaves. -/
lemma foreign_simulateNat : Foreign (simulateNat rteIpv4Cksum e m).2 :=
  Or.inr ⟨source_ne_privateIp hipv4, destination_ne_publicIp hipv4⟩

/-- With the checksum cleared again, it is what the rules left. -/
lemma cleared_simulateNat :
    cleared (simulateNat rteIpv4Cksum e m).2.data = cleared m.data := by
  have hlen : (bytes16 e (rteIpv4Cksum.eval (cleared m.data))).length
      = [(0 : UInt8), 0].length := length_bytes16 _ _
  calc cleared (simulateNat rteIpv4Cksum e m).2.data
      = putBytes (simulateNat rteIpv4Cksum e m).2.data hdrChecksum [0, 0] :=
        cleared_of_foreign (foreign_simulateNat hipv4) (isIpv4_simulateNat hipv4)
    _ = putBytes (cleared m.data) hdrChecksum [0, 0] := by
        rw [simulateNat_data _ _ hipv4, putBytes_putBytes hlen]
    _ = cleared m.data := putBytes_putBytes rfl _ _

/-- **The second time** nothing changes. -/
lemma simulateNat_twice :
    (simulateNat rteIpv4Cksum e (simulateNat rteIpv4Cksum e m).2).2
      = (simulateNat rteIpv4Cksum e m).2 := by
  have hdata : (simulateNat rteIpv4Cksum e (simulateNat rteIpv4Cksum e m).2).2.data
      = (simulateNat rteIpv4Cksum e m).2.data := by
    rw [simulateNat_data _ _ (isIpv4_simulateNat hipv4), cleared_simulateNat hipv4,
      simulateNat_data _ _ hipv4]
  exact congrArg (fun data => { m with data := data }) hdata

end Addresses

/-- A request from the host to a remote address, and a frame that answers what was
sent for it. -/
structure Exchange (rteIpv4Cksum : ByteReader UInt16) (e : Endian) (m reply : Mbuf) : Prop where
  ipv4 : isIpv4 reply
  source_eq : source m.data = privateIp
  remote_ne_private : destination m.data ≠ privateIp
  remote_ne_public : destination m.data ≠ publicIp
  reply_source : source reply.data = destination (simulateNat rteIpv4Cksum e m).2.data
  reply_destination : destination reply.data = source (simulateNat rteIpv4Cksum e m).2.data

/-- **The translation is stable.** For every IPv4 frame, whatever its header length and
contents, and whatever the checksum function computes: translating it twice is
translating it once; no byte outside the checksum and the addresses changes; the
source is never left private nor the destination public; and a request from the host
to a remote address leaves with the public source, while the answer to what was sent
arrives as the answer to the request. -/
theorem simulateNat_stable (rteIpv4Cksum : ByteReader UInt16) (e : Endian) (m : Mbuf)
    (hipv4 : isIpv4 m) :
    (simulateNat rteIpv4Cksum e (simulateNat rteIpv4Cksum e m).2).2
        = (simulateNat rteIpv4Cksum e m).2 ∧
      (∀ j, j < 24 ∨ 34 ≤ j → (simulateNat rteIpv4Cksum e m).2.data j = m.data j) ∧
      source (simulateNat rteIpv4Cksum e m).2.data ≠ privateIp ∧
      destination (simulateNat rteIpv4Cksum e m).2.data ≠ publicIp ∧
      ∀ reply, Exchange rteIpv4Cksum e m reply →
        source (simulateNat rteIpv4Cksum e m).2.data = publicIp ∧
          destination (simulateNat rteIpv4Cksum e m).2.data = destination m.data ∧
          source (simulateNat rteIpv4Cksum e reply).2.data = destination m.data ∧
          destination (simulateNat rteIpv4Cksum e reply).2.data = source m.data := by
  refine ⟨simulateNat_twice hipv4, fun j hj => simulateNat_data_beside hipv4 hj,
    source_ne_privateIp hipv4, destination_ne_publicIp hipv4, fun reply h => ?_⟩
  have hsource : source (simulateNat rteIpv4Cksum e m).2.data = publicIp := by
    rw [source_simulateNat hipv4, mapped, if_pos h.source_eq]
  have hdestination : destination (simulateNat rteIpv4Cksum e m).2.data = destination m.data := by
    rw [destination_simulateNat hipv4, mapped, if_neg h.remote_ne_public]
  refine ⟨hsource, hdestination, ?_, ?_⟩
  · rw [source_simulateNat h.ipv4, h.reply_source, hdestination, mapped,
      if_neg h.remote_ne_private]
  · rw [destination_simulateNat h.ipv4, h.reply_destination, hsource, mapped, if_pos rfl,
      h.source_eq]

/-- An echo request to a remote address and the reply to it. -/
theorem simulateNat_stable_ping :
    destination (simulateNat (ipv4Cksum .little) .little
        (ping [0, 0] [8, 8, 8, 8] [203, 0, 113, 10])).2.data = privateIp := by
  have hstable := simulateNat_stable (ipv4Cksum .little) .little
    (ping [0, 0] [172, 22, 116, 70] [8, 8, 8, 8]) (by decide)
  have hrequest : isIpv4 (ping [0, 0] [172, 22, 116, 70] [8, 8, 8, 8]) := by decide
  have hexchange : Exchange (ipv4Cksum .little) .little
      (ping [0, 0] [172, 22, 116, 70] [8, 8, 8, 8])
      (ping [0, 0] [8, 8, 8, 8] [203, 0, 113, 10]) :=
    { ipv4 := by decide
      source_eq := by decide
      remote_ne_private := by decide
      remote_ne_public := by decide
      reply_source := by
        rw [destination_simulateNat hrequest]
        decide
      reply_destination := by
        rw [source_simulateNat hrequest]
        decide }
  have hprivate : source (ping [0, 0] [172, 22, 116, 70] [8, 8, 8, 8]).data = privateIp := by decide
  rw [← hprivate]
  exact (hstable.2.2.2.2 _ hexchange).2.2.2

end DpdkStarter.StaticNat
