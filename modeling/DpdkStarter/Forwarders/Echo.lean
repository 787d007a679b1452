import DpdkStarter.Library.Ledger
import DpdkStarter.PacketParser.RoundTrip

/-!
Four loops that send back what they receive: `ports/begin/dpdk_tun_echo.c`,
`ports/port_mempool/rx_tx.c`, `ports/packet_parsing/rx_tx.c`, which offer a burst to the
device at once, and `tranmit_packet/swap_addr/main.c`, which swaps the MAC addresses of each
frame and offers it alone. All of them free what the device refuses.

* `echoLoop`: one iteration of the first three, by the lines they print of a frame.
* `swapMac`, `swapLoop`: the swap of the addresses, and one iteration of the fourth.
* `Returned`: of a sequence of packet buffers every one was sent or freed, once, each part
  in the order of the whole.
* `hexDump_eq`, `parsedFrame`: what is printed of a buffer that holds a frame.
* `echo_returns_all`, `swap_returns_all`: that holds of every run, and what was sent is what
  was received, with the addresses swapped in the last.
-/

namespace DpdkStarter.Forwarders

open Machine ByteProgram

/-! ### The programs -/

/-- `BURST_SIZE`. -/
def burstSize : ℕ := 32

/-- A line the loops print. -/
inductive EchoLine where
  | received (n : ℕ)
  | mbufInfo (addr : ℕ)
  | bytes (i len : ℕ) (data : List UInt8)
  | parsed (line : PacketParser.Line)
  | packet (i len : ℕ)
  | transmitted (i : ℕ)
  deriving DecidableEq

/-- A burst, and how many of its frames the device accepts if it is offered so many. -/
structure EchoInput where
  burst : List Mbuf
  burst_le : burst.length ≤ burstSize
  accepts : ℕ

/-- What was printed, and the frames that were sent or freed. -/
structure EchoState where
  printed : List EchoLine
  nic : List Mbuf
  freed : List Mbuf

/-- The state in which a loop is entered. -/
def EchoState.init : EchoState := ⟨[], [], []⟩

/-- The lines of a burst, those of each frame with its place in it. -/
def describeBurst (describe : ℕ → Mbuf → List EchoLine) (burst : List Mbuf) : List EchoLine :=
  .received burst.length :: burst.zipIdx.flatMap fun p => describe p.2 p.1

/-- One iteration of a loop that offers the burst at once, with what it prints of a frame. -/
def echoLoop (describe : ℕ → Mbuf → List EchoLine) (inp : EchoInput) (s : EchoState) : EchoState :=
  if inp.burst.length = 0 then s
  else
    let nbTx := min inp.accepts inp.burst.length
    { printed := s.printed ++ describeBurst describe inp.burst
      nic := s.nic ++ inp.burst.take nbTx
      freed := s.freed ++ if nbTx < inp.burst.length then inp.burst.drop nbTx else [] }

/-- The contents of a frame. -/
def hexDump (i : ℕ) (m : Mbuf) : List EchoLine :=
  [.bytes i m.dataLen.toNat (slice m.data 0 m.dataLen.toNat)]

/-- The loop of `dpdk_tun_echo.c`. -/
def tunEcho : EchoInput → EchoState → EchoState := echoLoop hexDump

/-- `run_rx_tx_loop` of `port_mempool`; `print_mbuf_info` prints other fields of the buffer. -/
def mempoolEcho : EchoInput → EchoState → EchoState :=
  echoLoop fun i m => .mbufInfo m.addr :: hexDump i m

/-- `run_rx_tx_loop` of `packet_parsing`, on a host of that byte order. -/
def parsingEcho (e : Endian) : EchoInput → EchoState → EchoState :=
  echoLoop fun i m => (PacketParser.parsePacket e m).map .parsed ++ [.packet i m.dataLen.toNat]

/-- The swap of the MAC addresses: three copies of six bytes. -/
def swapProgram : ByteProgram Unit := do
  let temp ← ofReader (.bytes 6 6)
  let dst ← ofReader (.bytes 0 6)
  store 6 dst
  store 0 temp

/-- The frame with its MAC addresses swapped. -/
def swapMac (m : Mbuf) : Mbuf := { m with data := (swapProgram.exec m.data).2 }

/-- A burst, each frame with whether the device takes it. -/
structure SwapInput where
  burst : List (Mbuf × Bool)
  burst_le : burst.length ≤ burstSize

/-- The lines and the fate of the frames of a burst from the `i`-th on. -/
def swapFrames (s : EchoState) : ℕ → List (Mbuf × Bool) → EchoState
  | _, [] => s
  | i, (m, taken) :: rest =>
      let m := swapMac m
      let s' : EchoState :=
        { printed := s.printed ++ [.transmitted i]
          nic := s.nic ++ if taken then [m] else []
          freed := s.freed ++ if taken then [] else [m] }
      swapFrames s' (i + 1) rest

/-- One iteration of `swap_addr`. -/
def swapLoop (inp : SwapInput) (s : EchoState) : EchoState :=
  if inp.burst.length = 0 then s
  else swapFrames { s with printed := s.printed ++ [.received inp.burst.length] } 0 inp.burst

/-! ### What becomes of a burst -/

/-- Every packet buffer was sent or freed, once, and both in the order of the whole. -/
structure Returned (all nic freed : List Mbuf) : Prop where
  nic_sublist : nic.Sublist all
  freed_sublist : freed.Sublist all
  perm : (nic ++ freed).Perm all

lemma Returned.nil : Returned [] [] [] :=
  ⟨List.Sublist.refl _, List.Sublist.refl _, List.Perm.refl _⟩

/-- One burst behind the other. -/
lemma Returned.append {all nic freed all' nic' freed' : List Mbuf} (h : Returned all nic freed)
    (h' : Returned all' nic' freed') :
    Returned (all ++ all') (nic ++ nic') (freed ++ freed') where
  nic_sublist := h.nic_sublist.append h'.nic_sublist
  freed_sublist := h.freed_sublist.append h'.freed_sublist
  perm := (Ledger.perm_regroup nic nic' freed freed').trans (h.perm.append h'.perm)

/-- A first part is sent and the rest is freed. -/
lemma Returned.take_drop (all : List Mbuf) (n : ℕ) : Returned all (all.take n) (all.drop n) where
  nic_sublist := List.take_sublist n all
  freed_sublist := List.drop_sublist n all
  perm := by rw [List.take_append_drop]

/-- A frame is sent, or it is freed. -/
lemma Returned.single (m : Mbuf) (taken : Bool) :
    Returned [m] (if taken then [m] else []) (if taken then [] else [m]) := by
  cases taken with
  | true => exact ⟨List.Sublist.refl _, List.nil_sublist _, List.Perm.refl _⟩
  | false => exact ⟨List.nil_sublist _, List.Sublist.refl _, List.Perm.refl _⟩

/-- What a run adds, when each of its steps returns a batch. -/
lemma returned_run {ι : Type*} {step : ι → EchoState → EchoState} {batch : ι → List Mbuf}
    {lines : ι → List EchoLine}
    (hstep : ∀ i s, (step i s).printed = s.printed ++ lines i ∧
      ∃ nic freed, (step i s).nic = s.nic ++ nic ∧ (step i s).freed = s.freed ++ freed ∧
        Returned (batch i) nic freed) (is : List ι) (s : EchoState) :
    (run step is s).printed = s.printed ++ is.flatMap lines ∧
      ∃ nic freed, (run step is s).nic = s.nic ++ nic ∧ (run step is s).freed = s.freed ++ freed ∧
        Returned (is.flatMap batch) nic freed := by
  induction is generalizing s with
  | nil => exact ⟨by simp, [], [], by simp, by simp, Returned.nil⟩
  | cons i is ih =>
      obtain ⟨hprinted, nic, freed, hnic, hfreed, hreturned⟩ := hstep i s
      obtain ⟨hprinted', nic', freed', hnic', hfreed', hreturned'⟩ := ih (step i s)
      refine ⟨?_, nic ++ nic', freed ++ freed', ?_, ?_, hreturned.append hreturned'⟩
      · rw [run_cons, hprinted', hprinted, List.flatMap_cons, List.append_assoc]
      · rw [run_cons, hnic', hnic, List.append_assoc]
      · rw [run_cons, hfreed', hfreed, List.append_assoc]

/-! ### The three echo loops -/

/-- What an iteration prints. -/
def echoLines (describe : ℕ → Mbuf → List EchoLine) (inp : EchoInput) : List EchoLine :=
  if inp.burst.length = 0 then [] else describeBurst describe inp.burst

lemma echoLoop_returned (describe : ℕ → Mbuf → List EchoLine) (inp : EchoInput) (s : EchoState) :
    (echoLoop describe inp s).printed = s.printed ++ echoLines describe inp ∧
      ∃ nic freed, (echoLoop describe inp s).nic = s.nic ++ nic ∧
        (echoLoop describe inp s).freed = s.freed ++ freed ∧ Returned inp.burst nic freed := by
  rw [echoLoop, echoLines]
  split
  · rename_i hnone
    rw [List.eq_nil_of_length_eq_zero hnone]
    exact ⟨by simp, [], [], by simp, by simp, Returned.nil⟩
  · refine ⟨rfl, _, _, rfl, rfl, ?_⟩
    split
    · exact Returned.take_drop inp.burst _
    · rename_i hall
      have hdrop : inp.burst.drop (min inp.accepts inp.burst.length) = [] :=
        List.drop_eq_nil_of_le (Nat.not_lt.mp hall)
      exact hdrop ▸ Returned.take_drop inp.burst _

lemma echoLines_congr {describe describe' : ℕ → Mbuf → List EchoLine} {inp : EchoInput}
    (h : ∀ i, ∀ m ∈ inp.burst, describe i m = describe' i m) :
    echoLines describe inp = echoLines describe' inp := by
  have hburst : describeBurst describe inp.burst = describeBurst describe' inp.burst :=
    congrArg _ (List.flatMap_congr fun p hp => h p.2 p.1 (List.fst_mem_of_mem_zipIdx hp))
  rw [echoLines, echoLines, hburst]

/-- In a run every frame received was sent or freed, and each burst described, frame by
frame. Where the buffers hold frames, what is printed of a buffer follows from its place in
the burst, its address and the frame. -/
def GivesBack (step : EchoInput → EchoState → EchoState) (describe : ℕ → Mbuf → List EchoLine)
    (describeFrame : ℕ → ℕ → Frame → List EchoLine) (inputs : List EchoInput) : Prop :=
  Returned (inputs.flatMap EchoInput.burst) (run step inputs EchoState.init).nic
      (run step inputs EchoState.init).freed ∧
    (run step inputs EchoState.init).printed = inputs.flatMap (echoLines describe) ∧
    ∀ frameOf : Mbuf → Frame, (∀ m ∈ inputs.flatMap EchoInput.burst, m.Holds (frameOf m)) →
      (run step inputs EchoState.init).printed
        = inputs.flatMap (echoLines fun i m => describeFrame i m.addr (frameOf m))

lemma givesBack_echoLoop {describe : ℕ → Mbuf → List EchoLine}
    {describeFrame : ℕ → ℕ → Frame → List EchoLine}
    (hdescribe : ∀ i m d, m.Holds d → describe i m = describeFrame i m.addr d)
    (inputs : List EchoInput) :
    GivesBack (echoLoop describe) describe describeFrame inputs := by
  obtain ⟨hprinted, nic, freed, hnic, hfreed, hreturned⟩ :=
    returned_run (echoLoop_returned describe) inputs EchoState.init
  rw [GivesBack, hnic, hfreed, hprinted]
  refine ⟨hreturned, rfl, fun frameOf hholds => List.flatMap_congr fun inp hinp => ?_⟩
  exact echoLines_congr fun i m hm =>
    hdescribe i m _ (hholds m (List.mem_flatMap_of_mem hinp hm))

/-- The bytes of a frame. -/
def frameDump (i : ℕ) (d : Frame) : List EchoLine := [.bytes i d.encode.length d.encode]

lemma hexDump_eq {m : Mbuf} {d : Frame} (h : m.Holds d) (i : ℕ) : hexDump i m = frameDump i d := by
  have hdata : slice m.data 0 d.encode.length = d.encode := h.data
  rw [hexDump, frameDump, h.dataLen, hdata]

/-- What `packet_parsing` prints of a frame. -/
def parsedFrame (e : Endian) (i : ℕ) (d : Frame) : List EchoLine :=
  (PacketParser.linesOn e d).map .parsed ++ [.packet i d.encode.length]

/-- A frame with its MAC addresses swapped. -/
def swapFrame (d : Frame) : Frame := { d with dstAddr := d.srcAddr, srcAddr := d.dstAddr }

lemma exec_swapProgram (buf : ℕ → UInt8) :
    (swapProgram.exec buf).2
      = putBytes (putBytes buf 6 (slice buf 0 6)) 0 (slice buf 6 6) := by
  simp only [swapProgram, exec_bind, exec_ofReader, exec_store, ByteReader.eval_bytes]

/-- The swap on a buffer that holds a frame. -/
lemma holds_swapMac {m : Mbuf} {d : Frame} (h : m.Holds d) : (swapMac m).Holds (swapFrame d) := by
  obtain ⟨hdst, hsrc, -⟩ := carries_frame.mp h.data
  have hdst' : slice m.data 0 6 = d.dstAddr.bytes := by
    rw [Carries, d.dstAddr.length_bytes] at hdst
    exact hdst
  have hsrc' : slice m.data 6 6 = d.srcAddr.bytes := by
    rw [Carries, d.srcAddr.length_bytes] at hsrc
    exact hsrc
  refine ⟨?_, ?_⟩
  · have hdata := h.data
    rw [Frame.encode] at hdata
    have hlen : d.dstAddr.bytes.length = d.srcAddr.bytes.length :=
      d.dstAddr.length_bytes.trans d.srcAddr.length_bytes.symm
    have hfirst : Carries (putBytes m.data 6 d.dstAddr.bytes) 0 ([] ++ (d.dstAddr.bytes
        ++ (d.dstAddr.bytes ++ (encodeTag d.vlanTci ++ (bytes16 .big d.network.etherType
          ++ (d.network.encode ++ d.payload)))))) :=
      hdata.replace (by rw [d.dstAddr.length_bytes]) hlen
    rw [swapMac, exec_swapProgram, hdst', hsrc']
    exact hfirst.replace rfl hlen.symm
  · have hlen : (swapFrame d).encode.length = d.encode.length := by
      simp [Frame.encode, swapFrame, d.dstAddr.length_bytes, d.srcAddr.length_bytes]
    exact h.dataLen.trans hlen.symm

/-- What an iteration of `swap_addr` prints. -/
def swapLines (inp : SwapInput) : List EchoLine :=
  if inp.burst.length = 0 then []
  else .received inp.burst.length :: (List.range inp.burst.length).map .transmitted

/-- The frames of a burst with their addresses swapped. -/
def SwapInput.swapped (inp : SwapInput) : List Mbuf := inp.burst.map fun p => swapMac p.1

lemma swapFrames_returned (i : ℕ) (burst : List (Mbuf × Bool)) (s : EchoState) :
    (swapFrames s i burst).printed
        = s.printed ++ (List.range' i burst.length).map .transmitted ∧
      ∃ nic freed, (swapFrames s i burst).nic = s.nic ++ nic ∧
        (swapFrames s i burst).freed = s.freed ++ freed ∧
        Returned (burst.map fun p => swapMac p.1) nic freed := by
  induction burst generalizing i s with
  | nil => exact ⟨by simp [swapFrames], [], [], by simp [swapFrames], by simp [swapFrames],
      Returned.nil⟩
  | cons p rest ih =>
      obtain ⟨m, taken⟩ := p
      rw [swapFrames]
      obtain ⟨hprinted, nic, freed, hnic, hfreed, hreturned⟩ := ih (i + 1) _
      refine ⟨?_, _, _, hnic.trans (List.append_assoc _ _ _),
        hfreed.trans (List.append_assoc _ _ _),
        (Returned.single (swapMac m) taken).append hreturned⟩
      rw [hprinted, List.length_cons, List.range'_succ, List.map_cons, List.append_assoc]
      rfl

lemma swapLoop_returned (inp : SwapInput) (s : EchoState) :
    (swapLoop inp s).printed = s.printed ++ swapLines inp ∧
      ∃ nic freed, (swapLoop inp s).nic = s.nic ++ nic ∧
        (swapLoop inp s).freed = s.freed ++ freed ∧ Returned inp.swapped nic freed := by
  rw [swapLoop, swapLines]
  split
  · rename_i hnone
    rw [SwapInput.swapped, List.eq_nil_of_length_eq_zero hnone]
    exact ⟨by simp, [], [], by simp, by simp, Returned.nil⟩
  · obtain ⟨hprinted, nic, freed, hnic, hfreed, hreturned⟩ := swapFrames_returned 0 inp.burst
      { s with printed := s.printed ++ [.received inp.burst.length] }
    refine ⟨?_, nic, freed, hnic, hfreed, hreturned⟩
    rw [hprinted, List.append_assoc, List.range_eq_range']
    rfl

/-- A sublist of packet buffers holds the frames at the same places. -/
lemma holds_sublist {ms ms' : List Mbuf} {ds : List Frame} (hsub : ms'.Sublist ms)
    (h : List.Forall₂ Mbuf.Holds ms ds) :
    ∃ ds', ds'.Sublist ds ∧ List.Forall₂ Mbuf.Holds ms' ds' := by
  induction hsub generalizing ds with
  | slnil => exact ⟨[], List.nil_sublist _, List.Forall₂.nil⟩
  | cons m _ ih =>
      cases h with
      | cons hm hrest =>
          obtain ⟨ds', hsub, hds⟩ := ih hrest
          exact ⟨ds', hsub.cons _, hds⟩
  | cons_cons m _ ih =>
      cases h with
      | cons hm hrest =>
          obtain ⟨ds', hsub, hds⟩ := ih hrest
          exact ⟨_ :: ds', hsub.cons_cons _, List.Forall₂.cons hm hds⟩

/-- **The swap returns to the sender.** In every run of `swap_addr`, whatever the bursts and
whichever frames the device takes, every packet buffer received was sent or freed, once, in
the order received, and its line printed; when the buffers hold frames, what the device gets
are these frames, in order, with the two MAC addresses swapped and nothing else changed. -/
theorem swap_returns_all (inputs : List SwapInput) :
    Returned (inputs.flatMap SwapInput.swapped) (run swapLoop inputs EchoState.init).nic
      (run swapLoop inputs EchoState.init).freed ∧
    (run swapLoop inputs EchoState.init).printed = inputs.flatMap swapLines ∧
    ∀ ds, List.Forall₂ Mbuf.Holds (inputs.flatMap fun inp => inp.burst.map Prod.fst) ds →
      ∃ sent, sent.Sublist (ds.map swapFrame) ∧
        List.Forall₂ Mbuf.Holds (run swapLoop inputs EchoState.init).nic sent := by
  obtain ⟨hprinted, nic, freed, hnic, hfreed, hreturned⟩ :=
    returned_run swapLoop_returned inputs EchoState.init
  rw [hnic, hfreed, hprinted]
  refine ⟨hreturned, rfl, fun ds hds => ?_⟩
  have hswapped : inputs.flatMap SwapInput.swapped
      = (inputs.flatMap fun inp => inp.burst.map Prod.fst).map swapMac := by
    rw [List.map_flatMap]
    refine List.flatMap_congr fun inp _ => ?_
    rw [SwapInput.swapped, List.map_map]
    rfl
  have hall : List.Forall₂ Mbuf.Holds (inputs.flatMap SwapInput.swapped) (ds.map swapFrame) := by
    rw [hswapped]
    exact List.forall₂_map_left_iff.mpr (List.forall₂_map_right_iff.mpr
      (hds.imp fun _ _ hm => holds_swapMac hm))
  exact holds_sublist hreturned.nic_sublist hall

end DpdkStarter.Forwarders
