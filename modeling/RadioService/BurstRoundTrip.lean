import RadioService.BurstTrace
import RadioService.Machine.Blocks

/-!
# A burst carries its payload

The packets of a burst pass the receiver's header check, and their chunks, put
at the stride of the packet index, make up the payload again.
-/

namespace RadioService

open Burst Bytes Blocks

/-! ## Headers -/

theorem length_toBytes (h : Header) : h.toBytes.length = kHeaderLen := rfl

@[simp] theorem ofBytes_toBytes (h : Header) (rest : List UInt8) :
    Header.ofBytes (h.toBytes ++ rest) = h := by
  cases h
  simp [Header.ofBytes, Header.toBytes, le16, le32]

/-- What the receiver accepts. -/
def Header.Valid (h : Header) : Prop :=
  h.magic = kMagic ∧ (h.totalPackets ≠ 0 ∧ h.totalPackets ≤ kMaxAirPacketsAlt) ∧
    (h.totalPayloadLen ≠ 0 ∧ h.totalPayloadLen ≤ kMaxTotalPayload) ∧
      h.packetIdx < h.totalPackets

theorem decodeHeader_toBytes {h : Header} (hvalid : Header.Valid h) (rest : List UInt8) :
    decodeHeader (h.toBytes ++ rest) = some h := by
  obtain ⟨hmagic, ⟨htotal, hmost⟩, ⟨hlen, hmax⟩, hidx⟩ := hvalid
  have hlong : ¬(h.toBytes ++ rest).length < kHeaderLen := by
    rw [List.length_append, length_toBytes]
    omega
  rw [decodeHeader, if_neg hlong, ofBytes_toBytes]
  simp [hmagic, htotal, hmost, hlen, hmax, hidx]

/-! ## Chunks -/

section

variable {len idx : ℕ}

theorem burstTotal_toNat (hmax : len ≤ 24576) : (burstTotal len).toNat = (len + 494) / 495 := by
  have hchunk : kChunk.toNat = 495 := rfl
  rw [burstTotal, hchunk, UInt16.toNat_ofNat']
  omega

theorem burstTotal_bounds (hpos : 1 ≤ len) (hmax : len ≤ 24576) :
    1 ≤ (burstTotal len).toNat ∧ (burstTotal len).toNat ≤ 50 := by
  rw [burstTotal_toNat hmax]
  omega

theorem badBurstSize_eq_false (hpos : 1 ≤ len) (hmax : len ≤ 24576) :
    badBurstSize len = false := by
  obtain ⟨hleast, hmost⟩ := burstTotal_bounds hpos hmax
  have hzero : burstTotal len ≠ 0 := by
    intro h
    rw [h] at hleast
    simp at hleast
  have hle : ¬burstTotal len > kMaxPackets := by
    rw [gt_iff_lt, UInt16.lt_iff_toNat_lt]
    exact not_lt.mpr hmost
  have hfit : ¬len > kMaxTotalPayload.toNat := not_lt.mpr hmax
  simp [badBurstSize, hzero, hle, hfit]

theorem chunk_start_lt (hmax : len ≤ 24576) (hidx : idx < (burstTotal len).toNat) :
    idx * 495 < len := by
  rw [burstTotal_toNat hmax] at hidx
  omega

theorem chunkOffset_toNat (hidx : idx < 65536) :
    ((UInt16.ofNat idx).toUInt32 * kChunk.toUInt32).toNat = idx * 495 := by
  have hchunk : kChunk.toUInt32.toNat = 495 := rfl
  rw [UInt32.toNat_mul, UInt16.toNat_toUInt32, UInt16.toNat_ofNat', hchunk,
    Nat.mod_eq_of_lt hidx]
  omega

/-- The bytes packet `idx` takes: a full chunk or the rest of the payload. -/
theorem chunkTake_toNat (hmax : len ≤ 24576) (hidx : idx * 495 ≤ len) :
    (chunkTake (UInt16.ofNat idx) (UInt32.ofNat len)).toNat = min 495 (len - idx * 495) := by
  have hoff := chunkOffset_toNat (by omega : idx < 65536)
  have hchunk : kChunk.toUInt32.toNat = 495 := rfl
  have hlen : (UInt32.ofNat len).toNat = len := by
    rw [UInt32.toNat_ofNat']
    omega
  have htake : (UInt32.ofNat len - (UInt16.ofNat idx).toUInt32 * kChunk.toUInt32).toNat =
      len - idx * 495 := by
    have hle : (UInt16.ofNat idx).toUInt32 * kChunk.toUInt32 ≤ UInt32.ofNat len := by
      rw [UInt32.le_iff_toNat_le, hoff, hlen]
      exact hidx
    rw [UInt32.toNat_sub_of_le _ _ hle, hoff, hlen]
  unfold chunkTake
  simp only [gt_iff_lt, UInt32.lt_iff_toNat_lt, hchunk, htake]
  split
  · rw [hchunk]
    omega
  · rw [htake]
    omega

end

/-! ## Packets -/

section

variable (payload : List UInt8) (id : UInt16)

def burstHeader (idx : ℕ) : Header :=
  ⟨kMagic, id, UInt16.ofNat idx, burstTotal payload.length, UInt32.ofNat payload.length,
    crc32 payload⟩

def burstChunk (idx : ℕ) : List UInt8 :=
  (payload.drop (idx * 495)).take 495 ++ List.replicate (495 - (payload.length - idx * 495)) 0

theorem length_burstChunk (idx : ℕ) : (burstChunk payload idx).length = 495 := by
  simp only [burstChunk, List.length_append, List.length_take, List.length_drop,
    List.length_replicate]
  omega

variable {payload id}

theorem burstPacket_eq {idx : ℕ} (hmax : payload.length ≤ 24576)
    (hidx : idx * 495 ≤ payload.length) :
    burstPacket payload id idx =
      (burstHeader payload id idx).toBytes ++ burstChunk payload idx := by
  have htake := chunkTake_toNat hmax hidx
  have hoff := chunkOffset_toNat (by omega : idx < 65536)
  have hpad : kPacketPayload.toNat - kHeaderLen - min 495 (payload.length - idx * 495) =
      495 - (payload.length - idx * 495) := by
    have hsize : kPacketPayload.toNat - kHeaderLen = 495 := rfl
    omega
  have hchunk : (payload.drop (idx * 495)).take (min 495 (payload.length - idx * 495)) =
      (payload.drop (idx * 495)).take 495 := by
    rw [← List.length_drop, List.take_eq_take_iff]
    omega
  simp only [burstPacket, encodePacket, htake, hoff, hpad, hchunk, burstChunk, burstHeader,
    List.append_assoc]

theorem burstHeader_valid {idx : ℕ} (hpos : 1 ≤ payload.length) (hmax : payload.length ≤ 24576)
    (hidx : idx < (burstTotal payload.length).toNat) :
    Header.Valid (burstHeader payload id idx) := by
  obtain ⟨hleast, hmost⟩ := burstTotal_bounds hpos hmax
  have hlen : (UInt32.ofNat payload.length).toNat = payload.length := by
    rw [UInt32.toNat_ofNat']
    omega
  refine ⟨rfl, ⟨?_, ?_⟩, ⟨?_, ?_⟩, ?_⟩
  · intro h
    have h₀ : (burstTotal payload.length).toNat = 0 := congrArg UInt16.toNat h
    omega
  · exact UInt16.le_iff_toNat_le.mpr (hmost.trans (by decide))
  · intro h
    have h₀ : (UInt32.ofNat payload.length).toNat = 0 := congrArg UInt32.toNat h
    omega
  · rw [UInt32.le_iff_toNat_le]
    exact hlen.trans_le hmax
  · rw [UInt16.lt_iff_toNat_lt]
    change (UInt16.ofNat idx).toNat < (burstTotal payload.length).toNat
    rw [UInt16.toNat_ofNat']
    omega

theorem burstChunk_cell {i : ℕ} (hi : i < payload.length) :
    (burstChunk payload (i / 495))[i % 495]? = payload[i]? := by
  have hmod : i % 495 < 495 := Nat.mod_lt i (by decide)
  have hsplit : i / 495 * 495 + i % 495 = i := Nat.div_add_mod' i 495
  have hlen : i % 495 < ((payload.drop (i / 495 * 495)).take 495).length := by
    rw [List.length_take, List.length_drop]
    omega
  rw [burstChunk, List.getElem?_append_left hlen, List.getElem?_take_of_lt hmod,
    List.getElem?_drop, hsplit]

end

/-! ## The round trip -/

/-- What packet `idx` of a burst carries: a header that the receiver decodes, its
chunk of the payload, from an offset that is no larger than the payload, and
zeros behind it. -/
structure CarriesChunk (payload : List UInt8) (id : UInt16) (idx : ℕ) : Prop where
  length : (burstPacket payload id idx).length = 511
  header : ∃ h, decodeHeader (burstPacket payload id idx) = some h ∧ h.burstId = id ∧
    h.packetIdx.toNat = idx ∧ h.totalPackets.toNat = (burstTotal payload.length).toNat ∧
    h.totalPayloadLen.toNat = payload.length ∧ h.payloadCrc32 = crc32 payload
  bounds :
    let off := ((UInt16.ofNat idx).toUInt32 * kChunk.toUInt32).toNat
    let take := (chunkTake (UInt16.ofNat idx) (UInt32.ofNat payload.length)).toNat
    off = idx * 495 ∧ off ≤ payload.length ∧ take = min 495 (payload.length - off) ∧
      off + take ≤ payload.length
  padding : ∀ b ∈ (burstPacket payload id idx).drop
    (16 + (chunkTake (UInt16.ofNat idx) (UInt32.ofNat payload.length)).toNat), b = 0

theorem drop_burstPacket {payload : List UInt8} {id : UInt16} {idx : ℕ}
    (hmax : payload.length ≤ 24576)
    (hidx : idx < (burstTotal payload.length).toNat) :
    (burstPacket payload id idx).drop 16 = burstChunk payload idx := by
  rw [burstPacket_eq hmax (chunk_start_lt hmax hidx).le]
  exact List.drop_left' (length_toBytes _)

theorem burstPacket_carries {payload : List UInt8} {id : UInt16} {idx : ℕ}
    (hpos : 1 ≤ payload.length) (hmax : payload.length ≤ 24576)
    (hidx : idx < (burstTotal payload.length).toNat) :
    CarriesChunk payload id idx := by
  have hle : idx * 495 ≤ payload.length := (chunk_start_lt hmax hidx).le
  have htake := chunkTake_toNat hmax hle
  have hoff := chunkOffset_toNat (by omega : idx < 65536)
  refine ⟨?_, ⟨burstHeader payload id idx, ?_, rfl, ?_, rfl, ?_, rfl⟩, ?_, ?_⟩
  · rw [burstPacket_eq hmax hle, List.length_append, length_toBytes, length_burstChunk]
    rfl
  · rw [burstPacket_eq hmax hle]
    exact decodeHeader_toBytes (burstHeader_valid hpos hmax hidx) _
  · change (UInt16.ofNat idx).toNat = idx
    rw [UInt16.toNat_ofNat']
    omega
  · change (UInt32.ofNat payload.length).toNat = payload.length
    rw [UInt32.toNat_ofNat']
    omega
  · rw [hoff, htake]
    omega
  · intro b hb
    rw [← List.drop_drop, drop_burstPacket hmax hidx, htake, burstChunk,
      List.drop_left' (by simp)] at hb
    exact List.eq_of_mem_replicate hb

/-- The packets of a burst, for every payload the host may send: the size is not
refused, their number, what each carries, and the payload put together from the
chunks, copied in any order to where the packet index says and cut at the
payload length. -/
theorem burst_carries_payload (payload : List UInt8) (id : UInt16) (hpos : 1 ≤ payload.length)
    (hmax : payload.length ≤ 24576) :
    badBurstSize payload.length = false ∧
      (burstTotal payload.length).toNat = (payload.length + 494) / 495 ∧
      (1 ≤ (burstTotal payload.length).toNat ∧ (burstTotal payload.length).toNat ≤ 50) ∧
      (∀ idx < (burstTotal payload.length).toNat, CarriesChunk payload id idx) ∧
      ∀ (order : List ℕ) (mem : ℕ → UInt8),
        (∀ idx, idx ∈ order ↔ idx < (burstTotal payload.length).toNat) →
          readBlock (writeChunks mem 495 (fun idx ↦ (burstPacket payload id idx).drop 16) order) 0
            payload.length = payload := by
  have htotal := burstTotal_toNat hmax
  refine ⟨badBurstSize_eq_false hpos hmax, htotal, burstTotal_bounds hpos hmax,
    fun idx hidx ↦ burstPacket_carries hpos hmax hidx, fun order mem horder ↦ ?_⟩
  refine readBlock_eq_iff.mpr fun i hi ↦ ?_
  have hin : i / 495 < (burstTotal payload.length).toNat := by
    rw [htotal]
    omega
  rw [Nat.zero_add]
  refine writeChunks_apply (by decide) (fun j hj ↦ ?_) ?_ (Or.inl ((horder _).mpr hin))
  · rw [drop_burstPacket hmax ((horder j).mp hj), length_burstChunk]
  · rw [drop_burstPacket hmax hin, burstChunk_cell hi, List.getElem?_eq_getElem hi]

/-- A payload one byte longer than a chunk, its second packet copied first. -/
theorem burst_carries_payload_496 :
    readBlock (writeChunks (fun _ ↦ 7) 495
      (fun idx ↦ (burstPacket (List.replicate 496 1) 3 idx).drop 16) [1, 0, 1]) 0
        (List.replicate 496 (1 : UInt8)).length = List.replicate 496 1 := by
  have hlen : (List.replicate 496 (1 : UInt8)).length = 496 := List.length_replicate
  have hpackets := (burst_carries_payload (List.replicate 496 1) 3 (by rw [hlen]; decide)
    (by rw [hlen]; decide)).2.2.2.2
  refine hpackets [1, 0, 1] (fun _ ↦ 7) fun idx ↦ ?_
  have htotal : (burstTotal (List.replicate 496 (1 : UInt8)).length).toNat = 2 := by
    rw [hlen]
    decide
  rw [htotal]
  simp only [List.mem_cons, List.not_mem_nil, or_false]
  omega

end RadioService
