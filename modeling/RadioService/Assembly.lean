import RadioService.BurstRoundTrip
import RadioService.Machine.Gathering

/-!
# Putting bursts together again

The device hands up raw air packets, and the host puts the bursts together: a
chunk goes where the index of its packet says, and a burst whose chunks have all
come and whose payload has the CRC of the header is passed on.  This module says
so of a host that follows the wire contract, and what such a host gets when some
packets are lost on the air and others arrive twice.
-/

namespace RadioService

open Burst Bytes Blocks Machine

/-! ## The host -/

/-- What the packets of one burst have in common. -/
def burstKey (h : Header) : Header := { h with packetIdx := 0 }

/-- A packet as the host takes it apart: its burst, its index and its chunk. -/
def airPart (pkt : List UInt8) : Option (Header × (ℕ × List UInt8)) :=
  (decodeHeader pkt).map fun h ↦ (burstKey h, (h.packetIdx.toNat, pkt.drop kHeaderLen))

def wholeBurst (key : Header) (parts : List (ℕ × List UInt8)) : Bool :=
  (List.range key.totalPackets.toNat).all fun idx ↦ parts.any fun c ↦ c.1 == idx

/-- The payload, if its CRC is the one of the header. -/
def rebuild (key : Header) (parts : List (ℕ × List UInt8)) : Option (List UInt8) :=
  let mem : Buffer := parts.foldl (fun mem c ↦ writeBlock mem (c.1 * kChunk.toNat) c.2) fun _ ↦ 0
  let payload := readBlock mem 0 key.totalPayloadLen.toNat
  if crc32 payload = key.payloadCrc32 then some payload else none

def reassemble (pkts : List (List UInt8)) : List (List UInt8) :=
  (run (gather wholeBurst) none (pkts.filterMap airPart)).2.filterMap fun p ↦ rebuild p.1 p.2

theorem wholeBurst_append (key : Header) (parts : List (ℕ × List UInt8)) (c : ℕ × List UInt8)
    (h : wholeBurst key parts = true) : wholeBurst key (parts ++ [c]) = true := by
  simp only [wholeBurst, List.all_eq_true, List.any_append, Bool.or_eq_true] at h ⊢
  exact fun idx hidx ↦ .inl (h idx hidx)

/-! ## A burst on the air -/

/-- What a node has put on the air of a frame: the indices of the packets, one
for each time a packet was started. -/
structure Airing where
  frame : TxFrame
  id : UInt16
  order : List ℕ
  size : 1 ≤ frame.payload.length ∧ frame.payload.length ≤ 24576
  bounded : ∀ idx ∈ order, idx < (burstTotal frame.payload.length).toNat

namespace Airing

variable (a : Airing)

def total : ℕ := (burstTotal a.frame.payload.length).toNat

def packet (idx : ℕ) : List UInt8 := burstPacket a.frame.payload a.id idx

def packets : List (List UInt8) := a.order.map a.packet

def key : Header := burstHeader a.frame.payload a.id 0

def parts : List (ℕ × List UInt8) := a.order.map fun idx ↦ (idx, burstChunk a.frame.payload idx)

/-- Every packet of the burst is among `pkts`. -/
def wholeIn (pkts : List (List UInt8)) : Bool :=
  (List.range a.total).all fun idx ↦ pkts.contains (a.packet idx)

theorem wholeIn_mono {pkts pkts' : List (List UInt8)} (h : pkts ⊆ pkts')
    (hwhole : a.wholeIn pkts = true) : a.wholeIn pkts' = true := by
  refine List.all_eq_true.mpr fun idx hidx ↦ ?_
  have hin := List.all_eq_true.mp hwhole idx hidx
  rw [List.contains_iff_mem] at hin ⊢
  exact h hin

theorem airPart_packet {idx : ℕ} (hidx : idx < a.total) :
    airPart (a.packet idx) = some (a.key, (idx, burstChunk a.frame.payload idx)) := by
  obtain ⟨hpos, hmax⟩ := a.size
  have hsmall := (burstTotal_bounds hpos hmax).2
  have hheader : decodeHeader (a.packet idx) = some (burstHeader a.frame.payload a.id idx) := by
    rw [packet, burstPacket_eq hmax (chunk_start_lt hmax hidx).le]
    exact decodeHeader_toBytes (burstHeader_valid hpos hmax hidx) _
  have hindex : (burstHeader a.frame.payload a.id idx).packetIdx.toNat = idx := by
    change (UInt16.ofNat idx).toNat = idx
    rw [UInt16.toNat_ofNat']
    unfold total at hidx
    omega
  have hchunk : (a.packet idx).drop kHeaderLen = burstChunk a.frame.payload idx :=
    drop_burstPacket hmax hidx
  rw [airPart, hheader, Option.map_some, hindex, hchunk]
  rfl

theorem airPart_packets : a.packets.filterMap airPart = block a.key a.parts := by
  rw [packets, List.filterMap_map, block, parts, List.map_map]
  refine List.filterMap_eq_map_iff_forall_eq_some.mpr fun idx hidx ↦ ?_
  exact a.airPart_packet (a.bounded idx hidx)

theorem wholeBurst_nil : wholeBurst a.key [] = false := by
  obtain ⟨hpos, hmax⟩ := a.size
  have hleast := (burstTotal_bounds hpos hmax).1
  have hmem : 0 ∈ List.range a.key.totalPackets.toNat := List.mem_range.mpr hleast
  rw [wholeBurst, List.all_eq_false]
  exact ⟨0, hmem, by simp⟩

/-- Chunks of the burst, in any order and number, give the payload back once
they are all there. -/
theorem rebuild_eq {zs : List (ℕ × List UInt8)} (hzs : zs.Sublist a.parts)
    (hwhole : wholeBurst a.key zs = true) : rebuild a.key zs = some a.frame.payload := by
  obtain ⟨hpos, hmax⟩ := a.size
  obtain ⟨order, horder, rfl⟩ := List.sublist_map_iff.mp hzs
  have hbound : ∀ idx ∈ order, idx < a.total := fun idx hidx ↦
    a.bounded idx (horder.subset hidx)
  have hall : ∀ idx, idx ∈ order ↔ idx < a.total := by
    refine fun idx ↦ ⟨hbound idx, fun hidx ↦ ?_⟩
    have hany := List.all_eq_true.mp hwhole idx (List.mem_range.mpr hidx)
    simpa using hany
  have hmem : (order.map fun idx ↦ (idx, burstChunk a.frame.payload idx)).foldl
      (fun mem c ↦ writeBlock mem (c.1 * kChunk.toNat) c.2) (fun _ ↦ (0 : UInt8)) =
        writeChunks (fun _ ↦ 0) 495 (burstChunk a.frame.payload) order := List.foldl_map
  have hpayload : readBlock (writeChunks (fun _ ↦ 0) 495 (burstChunk a.frame.payload) order) 0
      a.frame.payload.length = a.frame.payload := by
    refine readBlock_eq_iff.mpr fun i hi ↦ ?_
    have hin : i / 495 < a.total := by
      rw [total, burstTotal_toNat hmax]
      omega
    rw [Nat.zero_add]
    refine writeChunks_apply (by decide) (fun j _ ↦ length_burstChunk _ j) ?_
      (Or.inl ((hall _).mpr hin))
    rw [burstChunk_cell hi, List.getElem?_eq_getElem hi]
  have hlen : a.key.totalPayloadLen.toNat = a.frame.payload.length := by
    change (UInt32.ofNat a.frame.payload.length).toNat = a.frame.payload.length
    rw [UInt32.toNat_ofNat']
    omega
  unfold rebuild
  dsimp only
  rw [hmem, hlen, hpayload]
  exact if_pos rfl

/-- The chunks that have come of the burst are those of its packets. -/
theorem wholeBurst_partsOf {as : List Airing} {a : Airing} (ha : a ∈ as)
    (hkeys : (as.map key).Nodup) {heard : List (List UInt8)}
    (hheard : heard.Sublist (as.flatMap packets)) :
    wholeBurst a.key (partsOf a.key (heard.filterMap airPart)) = a.wholeIn heard := by
  have hcome : ∀ idx < a.total,
      (∃ c ∈ partsOf a.key (heard.filterMap airPart), c.1 = idx) ↔ a.packet idx ∈ heard := by
    intro idx hidx
    constructor
    · rintro ⟨c, hc, rfl⟩
      obtain ⟨pkt, hpkt, hpart⟩ := List.mem_filterMap.mp (mem_partsOf.mp hc)
      obtain ⟨a', ha', hpkt'⟩ := List.mem_flatMap.mp (hheard.subset hpkt)
      obtain ⟨j, hj, rfl⟩ := List.mem_map.mp hpkt'
      rw [a'.airPart_packet (a'.bounded j hj), Option.some_inj] at hpart
      have hsame : a' = a := List.inj_on_of_nodup_map hkeys ha' ha (congrArg Prod.fst hpart)
      have hindex : j = c.1 := congrArg (fun p ↦ p.2.1) hpart
      rw [← hindex, ← hsame]
      exact hpkt
    · intro hpkt
      refine ⟨(idx, burstChunk a.frame.payload idx), mem_partsOf.mpr ?_, rfl⟩
      exact List.mem_filterMap.mpr ⟨a.packet idx, hpkt, a.airPart_packet hidx⟩
  refine Bool.eq_iff_iff.mpr ?_
  simp only [wholeBurst, wholeIn, List.all_eq_true, List.any_eq_true, beq_iff_eq,
    List.contains_iff_mem, List.mem_range]
  exact forall₂_congr hcome

end Airing

/-- Of bursts put on the air one after the other, a host gets the payloads of
those it has heard every packet of, in order and once each, whatever packets are
lost and however often a packet comes. -/
theorem reassemble_heard {as : List Airing} (hkeys : (as.map Airing.key).Nodup)
    {heard : List (List UInt8)} (hheard : heard.Sublist (as.flatMap Airing.packets)) :
    reassemble heard = (as.filter fun a ↦ a.wholeIn heard).map fun a ↦ a.frame.payload := by
  have hparts : (heard.filterMap airPart).Sublist
      (as.flatMap fun a ↦ block a.key a.parts) := by
    have h := hheard.filterMap airPart
    rw [List.filterMap_flatMap] at h
    simpa only [Airing.airPart_packets] using h
  have hgather := gather_heard wholeBurst_append Airing.key Airing.parts rebuild
    (fun a ↦ some a.frame.payload) hkeys (fun a _ ↦ a.wholeBurst_nil)
    (fun a _ _ hzs hwhole ↦ a.rebuild_eq hzs hwhole) hparts (s := none) fun _ _ ↦ rfl
  have hfilter : (as.filter fun a ↦
      wholeBurst a.key (partsOf a.key (heard.filterMap airPart))) =
        as.filter fun a ↦ a.wholeIn heard :=
    List.filter_congr fun a ha ↦ Airing.wholeBurst_partsOf ha hkeys hheard
  rw [hfilter] at hgather
  have hout := congrArg (List.filterMap id) hgather
  rw [List.filterMap_map, List.filterMap_map] at hout
  exact hout.trans (by simp)

/-- Of whole bursts none is missing, if only each has another header than the one in
front of it. -/
theorem reassemble_whole {as : List Airing} (hkeys : as.IsChain fun a a' ↦ a.key ≠ a'.key)
    (hwhole : ∀ a ∈ as, wholeBurst a.key a.parts = true) :
    reassemble (as.flatMap Airing.packets) = as.map fun a ↦ a.frame.payload := by
  have hparts : (as.flatMap Airing.packets).filterMap airPart =
      as.flatMap fun a ↦ block a.key a.parts := by
    rw [List.filterMap_flatMap]
    exact congrArg List.flatten (List.map_congr_left fun a _ ↦ a.airPart_packets)
  have hgather := gather_blocks wholeBurst_append Airing.key Airing.parts rebuild
    (fun a ↦ some a.frame.payload) hkeys (fun a _ ↦ a.wholeBurst_nil) hwhole
    (fun a _ _ hzs hw ↦ a.rebuild_eq hzs hw) (s := none) fun _ _ ↦ rfl
  have hout := congrArg (List.filterMap id) hgather
  rw [List.filterMap_map, List.filterMap_map] at hout
  rw [reassemble, hparts]
  exact hout.trans (by simp)

end RadioService
