import Mathlib.Data.Int.Bitwise
import RadioService.BurstRoundTrip
import RadioService.SimFrames

/-!
# The simulator's bursts

`SimDevice.send_burst` cuts, pads and checks a payload in unbounded integers, its mask
being a negative number.  On the payloads and identifiers of the air format its
packets are those of the service.
-/

namespace RadioService.Serial

open Burst Bytes Struct

/-! ## The checksum -/

def simCrc32Bit (crc : ℤ) : ℤ :=
  Int.xor (crc >>> 1) (Int.land 0xEDB88320 (-Int.land crc 1))

def simCrc32Byte (crc : ℤ) (b : UInt8) : ℤ := simCrc32Bit^[8] (Int.xor crc b.toNat)

def simCrc32 (data : List UInt8) : ℤ :=
  if data = [] then 0 else Int.xor (data.foldl simCrc32Byte 0xFFFFFFFF) 0xFFFFFFFF

theorem simCrc32Bit_eq (crc : UInt32) : simCrc32Bit crc.toNat = (crc32Bit crc).toNat := by
  have hdown : (crc.toNat : ℤ) >>> 1 = ((crc >>> 1).toNat : ℕ) := rfl
  have hlow : Int.land crc.toNat 1 = ((crc &&& 1).toNat : ℕ) := rfl
  have hmask : Int.land 0xEDB88320 (-((crc &&& 1).toNat : ℕ)) =
      ((0xEDB88320 &&& (0 - (crc &&& 1))).toNat : ℕ) := by
    have hcases : (crc &&& 1).toNat = 0 ∨ (crc &&& 1).toNat = 1 := by
      rw [UInt32.toNat_and, UInt32.toNat_one, Nat.and_one_is_mod]
      exact Nat.mod_two_eq_zero_or_one _
    rcases hcases with hbit | hbit
    · have hzero : crc &&& 1 = 0 := UInt32.toNat_inj.mp hbit
      rw [hzero]
      decide
    · have hone : crc &&& 1 = 1 := UInt32.toNat_inj.mp hbit
      rw [hone]
      decide +kernel
  rw [simCrc32Bit, hdown, hlow, hmask, crc32Bit, UInt32.toNat_xor]
  rfl

theorem simCrc32Byte_eq (crc : UInt32) (b : UInt8) :
    simCrc32Byte crc.toNat b = (crc32Byte crc b).toNat := by
  have hbits : ∀ (n : ℕ) (crc : UInt32), simCrc32Bit^[n] crc.toNat = (crc32Bit^[n] crc).toNat := by
    intro n
    induction n with
    | zero => exact fun _ ↦ rfl
    | succ n ih =>
        intro crc
        rw [Function.iterate_succ_apply, Function.iterate_succ_apply, simCrc32Bit_eq, ih]
  have hxor : Int.xor crc.toNat b.toNat = ((crc ^^^ b.toUInt32).toNat : ℕ) := by
    rw [UInt32.toNat_xor, UInt8.toNat_toUInt32]
    rfl
  rw [simCrc32Byte, hxor, hbits, crc32Byte]

/-- The checksum in unbounded integers is the checksum in words. -/
theorem simCrc32_eq (data : List UInt8) : simCrc32 data = (crc32 data).toNat := by
  have hfold : ∀ crc : UInt32,
      data.foldl simCrc32Byte crc.toNat = (data.foldl crc32Byte crc).toNat := by
    induction data with
    | nil => exact fun _ ↦ rfl
    | cons b data ih =>
        intro crc
        rw [List.foldl_cons, List.foldl_cons, simCrc32Byte_eq, ih]
  have hnot : ∀ crc : UInt32, Int.xor crc.toNat 0xFFFFFFFF = (~~~crc).toNat := by
    intro crc
    have hones : -1 = (0xFFFFFFFF : UInt32) := by decide
    rw [← UInt32.xor_neg_one, hones, UInt32.toNat_xor]
    rfl
  unfold simCrc32 crc32
  split
  · rfl
  · exact (congrArg (Int.xor · 0xFFFFFFFF) (hfold 0xFFFFFFFF)).trans (hnot _)

/-! ## The packets -/

def PACKET_PAYLOAD : ℕ := 511
def CHUNK : ℕ := PACKET_PAYLOAD - 16
def FB_MAGIC : ℕ := 0x4642

namespace SimDevice

/-- An air packet, from the loop of `send_burst`. -/
def airPacket (burstId : ℕ) (payload : List UInt8) (total idx : ℕ) : Option (List UInt8) := do
  let hdr ← pack [.unsigned 2 FB_MAGIC, .unsigned 2 burstId, .unsigned 2 idx, .unsigned 2 total,
    .unsigned 4 payload.length, .unsigned 4 (simCrc32 payload)]
  let pkt := hdr ++ (payload.drop (idx * CHUNK)).take ((idx + 1) * CHUNK - idx * CHUNK)
  return pkt ++ List.replicate (PACKET_PAYLOAD - pkt.length) 0

/-- A packet, and the frame that takes it to the host. -/
structure SimPacket where
  air : List UInt8
  frame : List UInt8
deriving DecidableEq

def sendBurst (d : SimDevice) (payload : List UInt8) : Option (SimDevice × List SimPacket) := do
  let total := (payload.length + CHUNK - 1) / CHUNK
  let burstId := d.burstId % 65535 + 1
  let packets ← (List.range total).mapM fun idx ↦ do
    let pkt ← airPacket burstId payload total idx
    return SimPacket.mk pkt (← rxPacket pkt (-40))
  return ({ d with
    burstId := burstId
    stats := { d.stats with
      burstsRx := d.stats.burstsRx + 1
      packetsRx := d.stats.packetsRx + packets.length } }, packets)

/-! ## Against the service -/

theorem airPacket_eq {payload : List UInt8} (hmax : payload.length ≤ 24576) {id : ℕ}
    (hid : id ≤ 65535) {idx : ℕ} (hidx : idx < (burstTotal payload.length).toNat) :
    airPacket id payload (burstTotal payload.length).toNat idx =
      some (burstPacket payload (UInt16.ofNat id) idx) := by
  have hstart : idx * 495 ≤ payload.length := (chunk_start_lt hmax hidx).le
  have hheader : pack [.unsigned 2 FB_MAGIC, .unsigned 2 id, .unsigned 2 idx,
      .unsigned 2 (burstTotal payload.length).toNat, .unsigned 4 payload.length,
      .unsigned 4 (simCrc32 payload)] =
      some (burstHeader payload (UInt16.ofNat id) idx).toBytes := by
    have hmagic : (Field.unsigned 2 FB_MAGIC).pack = some (le16 kMagic) := unsigned_uint16 kMagic
    have hburst := unsigned_two (n := id) (by omega)
    have hpacket := unsigned_two (n := idx) (by omega)
    have htotal := unsigned_uint16 (burstTotal payload.length)
    have hsize := unsigned_four (n := payload.length) (by omega)
    have hcrc : (Field.unsigned 4 (simCrc32 payload)).pack = some (le32 (crc32 payload)) := by
      rw [simCrc32_eq, unsigned_uint32]
    rw [pack_cons hmagic <| pack_cons hburst <| pack_cons hpacket <| pack_cons htotal <|
      pack_cons hsize <| pack_cons hcrc pack_nil]
    simp [burstHeader, Header.toBytes]
  have hlen : (burstHeader payload (UInt16.ofNat id) idx).toBytes.length = 16 := rfl
  have htake : (idx + 1) * 495 - idx * 495 = 495 := by omega
  have hpad : PACKET_PAYLOAD - ((burstHeader payload (UInt16.ofNat id) idx).toBytes ++
      (payload.drop (idx * 495)).take 495).length = 495 - (payload.length - idx * 495) := by
    rw [List.length_append, hlen, List.length_take, List.length_drop, PACKET_PAYLOAD]
    omega
  have hchunk : CHUNK = 495 := rfl
  rw [airPacket, hheader, burstPacket_eq hmax hstart, burstChunk, Option.bind_eq_bind,
    Option.bind_some]
  dsimp only
  rw [hchunk, htake, hpad, List.append_assoc]
  rfl

theorem mapM_eq_some {α β : Type*} {f : α → Option β} {g : α → β} {l : List α}
    (h : ∀ x ∈ l, f x = some (g x)) : l.mapM f = some (l.map g) := by
  induction l with
  | nil => rfl
  | cons x l ih =>
      have htail := ih fun y hy ↦ h y (List.mem_cons_of_mem x hy)
      rw [List.mapM_cons, h x List.mem_cons_self, htail]
      rfl

/-- What the service makes of chunk `idx`, and the frame it comes to the host in. -/
def servicePacket (payload : List UInt8) (id idx : ℕ) : SimPacket where
  air := burstPacket payload (UInt16.ofNat id) idx
  frame := (Emission.rx (burstPacket payload (UInt16.ofNat id) idx) (-40)).bytes

theorem packets_eq {payload : List UInt8} (hpos : 1 ≤ payload.length)
    (hmax : payload.length ≤ 24576) {id : ℕ} (hmost : id ≤ 65535) :
    ((List.range (burstTotal payload.length).toNat).mapM fun idx ↦ do
      let pkt ← airPacket id payload (burstTotal payload.length).toNat idx
      return SimPacket.mk pkt (← rxPacket pkt (-40))) =
        some ((List.range (burstTotal payload.length).toNat).map (servicePacket payload id)) := by
  refine mapM_eq_some fun idx hidx ↦ ?_
  have hidx := List.mem_range.mp hidx
  have hlen : (burstPacket payload (UInt16.ofNat id) idx).length < 65536 := by
    rw [(burstPacket_carries hpos hmax hidx).length]
    decide
  have hrssi : (-40 : Int16).toInt = -40 := by decide
  have hframe := rxPacket_eq hlen (-40)
  rw [hrssi] at hframe
  rw [airPacket_eq hmax hmost hidx, Option.bind_eq_bind, Option.bind_some, hframe,
    Option.bind_some]
  rfl

/-- For every payload the host may send and every identifier, whatever device gives
it out: the packets of the simulator are those that the service makes of the
payload, and they come to the host in the frames that the service writes. -/
theorem sendBurst_eq_encodePacket (payload : List UInt8) (hpos : 1 ≤ payload.length)
    (hmax : payload.length ≤ 24576) (id : ℕ) (hleast : 1 ≤ id) (hmost : id ≤ 65535) :
    (∃ d : SimDevice, d.burstId % 65535 + 1 = id) ∧
      ∀ d : SimDevice, d.burstId % 65535 + 1 = id →
        ∃ d' packets, sendBurst d payload = some (d', packets) ∧ d'.burstId = id ∧
          packets.map (·.air) = (List.range (burstTotal payload.length).toNat).map (fun idx ↦
            encodePacket (UInt16.ofNat id) (UInt16.ofNat idx) (burstTotal payload.length) payload
              (UInt32.ofNat payload.length) (crc32 payload)) ∧
          ∀ p ∈ packets, p.frame = (Emission.rx p.air (-40)).bytes := by
  refine ⟨⟨{ burstId := id - 1 }, ?_⟩, fun d hid ↦ ?_⟩
  · change (id - 1) % 65535 + 1 = id
    omega
  · let total := burstTotal payload.length
    let packets := (List.range total.toNat).map (servicePacket payload id)
    have htotal : (payload.length + CHUNK - 1) / CHUNK = total.toNat :=
      (burstTotal_toNat hmax).symm
    let d' : SimDevice := { d with
      burstId := id
      stats := { d.stats with
        burstsRx := d.stats.burstsRx + 1
        packetsRx := d.stats.packetsRx + packets.length } }
    refine ⟨d', packets, ?_, rfl, ?_, ?_⟩
    · rw [sendBurst, htotal, hid]
      dsimp only
      rw [packets_eq hpos hmax hmost]
      rfl
    · rw [List.map_map]
      rfl
    · intro p hp
      obtain ⟨idx, -, rfl⟩ := List.mem_map.mp hp
      rfl

/-- The identifier behind the largest one is the smallest. -/
theorem sendBurst_eq_encodePacket_three :
    ∃ d' packets, sendBurst { burstId := 65535 } [1, 2, 3] = some (d', packets) ∧
      d'.burstId = 1 ∧
        packets.map (·.air) = [encodePacket 1 0 1 [1, 2, 3] 3 (crc32 [1, 2, 3])] := by
  obtain ⟨-, hsend⟩ := sendBurst_eq_encodePacket [1, 2, 3] (by decide) (by decide) 1 (by decide)
    (by decide)
  obtain ⟨d', packets, hrun, hid, hair, -⟩ := hsend { burstId := 65535 } (by decide)
  have htotal : burstTotal ([1, 2, 3] : List UInt8).length = 1 := by decide
  rw [htotal] at hair
  exact ⟨d', packets, hrun, hid, hair⟩

end SimDevice

end RadioService.Serial
