import RadioService.Emissions
import RadioService.Machine.Struct

/-!
# The simulator's frames to the host

The writers of `SimDevice`, in unbounded integers and `struct` formats, beside the
writers of the service.  All but one put the same bytes on the wire; an error has
a length of two bytes behind its tag that the service's does not have.
-/

namespace RadioService.Serial

open Bytes Stats Struct

/-! ## The device -/

inductive SimMode where
  | rx
  | scan
deriving DecidableEq

structure SimStats where
  burstsTx : ℕ := 0
  burstsRx : ℕ := 0
  packetsTx : ℕ := 0
  packetsRx : ℕ := 0
  crcErrors : ℕ := 0
  hostTxDropped : ℕ := 0
  uartRingDrops : ℕ := 0
  stagingOverwrites : ℕ := 0
  burstIdConflicts : ℕ := 0
  hwRx : ℕ := 0
  hwCrc : ℕ := 0
  hwLen : ℕ := 0
  hwOk : ℕ := 0
  killed : ℕ := 0

structure SimDevice where
  stats : SimStats := {}
  burstId : ℕ := 1
  txQ : List (List UInt8) := []
  mode : SimMode := .rx

namespace SimDevice

/-! ## Framing -/

def frame (tag : UInt8) (payload : List UInt8) : Option (List UInt8) := do
  return [tag] ++ (← pack [.unsigned 2 payload.length]) ++ payload

def ready (maxPayload : ℤ) : Option (List UInt8) := do
  return [tagG] ++ (← pack [.unsigned 2 maxPayload])

/-- `msg` is the encoded message. -/
def error (code : ℤ) (msg : List UInt8) : Option (List UInt8) := do
  let m := msg.take 64
  frame tagE ((← pack [.unsigned 1 code, .unsigned 1 m.length]) ++ m)

def diag (event val : ℤ) : Option (List UInt8) := do
  frame tagD (← pack [.unsigned 1 event, .unsigned 4 val, .unsigned 1 0])

def statsFields (d : SimDevice) (now : ℤ) : List Field := [
  .unsigned 4 d.stats.burstsTx, .unsigned 4 d.stats.burstsRx, .unsigned 4 d.stats.packetsTx,
  .unsigned 4 d.stats.packetsRx, .unsigned 4 d.stats.crcErrors, .unsigned 4 d.stats.hostTxDropped,
  .unsigned 1 (if d.mode = .rx then 0 else 2),
  .unsigned 1 0,
  .unsigned 1 (if d.txQ ≠ [] then 1 else 0),
  .unsigned 1 0,
  .unsigned 1 0,
  .pad 3,
  .unsigned 4 now,
  .unsigned 4 d.stats.uartRingDrops, .unsigned 4 d.stats.stagingOverwrites,
  .unsigned 4 d.stats.burstIdConflicts, .unsigned 4 d.stats.hwRx, .unsigned 4 d.stats.hwCrc,
  .unsigned 4 d.stats.hwLen, .unsigned 4 d.stats.hwOk, .unsigned 4 d.stats.killed]

def statsFrame (d : SimDevice) (now : ℤ) : Option (List UInt8) := do
  frame tagStats (← pack (d.statsFields now))

def rxPacket (airPayload : List UInt8) (rssi : ℤ) : Option (List UInt8) := do
  return [tagR] ++ (← pack [.unsigned 2 airPayload.length]) ++ airPayload ++
    (← pack [.signed 2 rssi])

/-! ## Against the service -/

theorem frame_eq (tag : UInt8) {payload : List UInt8} (h : payload.length < 65536) :
    frame tag payload = some (tag :: lenBytes payload.length ++ payload) := by
  rw [frame, pack_cons (unsigned_two h) pack_nil, List.append_nil]
  rfl

theorem ready_eq (maxPayload : UInt16) :
    ready maxPayload.toNat = some (Emission.ready maxPayload).bytes := by
  rw [ready, pack_cons (unsigned_uint16 maxPayload) pack_nil]
  rfl

theorem diag_eq (event : UInt8) (val : UInt32) :
    diag event.toNat val.toNat = some (Emission.diag event val).bytes := by
  have hzero : (Field.unsigned 1 0).pack = some [0] := unsigned_uint8 0
  have hbody := pack_cons (unsigned_uint8 event)
    (pack_cons (unsigned_uint32 val) (pack_cons hzero pack_nil))
  have hlen : ([event] ++ (le32 val ++ ([0] ++ []))).length = 6 := rfl
  rw [diag, hbody, Option.bind_eq_bind, Option.bind_some, frame_eq tagD (hlen ▸ by decide), hlen,
    Emission.bytes_diag]
  simp

theorem rxPacket_eq {pkt : List UInt8} (h : pkt.length < 65536) (rssi : Int16) :
    rxPacket pkt rssi.toInt = some (Emission.rx pkt rssi).bytes := by
  rw [rxPacket, pack_cons (unsigned_two h) pack_nil, pack_cons (signed_int16 rssi) pack_nil,
    Emission.bytes_rx]
  simp [lenBytes]

/-- Two bytes more than the service writes, if not a longer message. -/
theorem error_eq (code : UInt8) (msg : List UInt8) :
    error code.toNat msg =
      some (tagE :: lenBytes (2 + (msg.take 64).length) ++
        (code :: UInt8.ofNat (msg.take 64).length :: msg.take 64)) := by
  have hmost : (msg.take 64).length ≤ 64 := List.length_take_le 64 msg
  have hbyte : (msg.take 64).length < 256 := by omega
  have hhead : pack [.unsigned 1 code.toNat, .unsigned 1 (msg.take 64).length] =
      some [code, UInt8.ofNat (msg.take 64).length] :=
    pack_cons (unsigned_uint8 code) (pack_cons (unsigned_one hbyte) pack_nil)
  have hsize : (code :: UInt8.ofNat (msg.take 64).length :: msg.take 64).length =
      2 + (msg.take 64).length := by
    rw [List.length_cons, List.length_cons]
    omega
  have hfit : (code :: UInt8.ofNat (msg.take 64).length :: msg.take 64).length < 65536 := by
    rw [hsize]
    omega
  rw [error, hhead, Option.bind_eq_bind, Option.bind_some, List.cons_append, List.cons_append,
    List.nil_append, frame_eq tagE hfit, hsize]

theorem error_ne (code : UInt8) (msg : List UInt8) :
    error code.toNat msg ≠ some (Emission.error code msg).bytes := by
  intro h
  rw [error_eq] at h
  have hlen := congrArg List.length (Option.some.inj h)
  have hshort : ((cString msg).take 64).length ≤ (msg.take 64).length := by
    have hle := (List.takeWhile_prefix (· ≠ (0 : UInt8)) (l := msg)).length_le
    rw [List.length_take, List.length_take, cString]
    omega
  simp [Emission.bytes, Emission.pieces, writeError, lenBytes, le16] at hlen
  simp at hshort
  omega

end SimDevice

def simStats (c : Counters) : SimStats where
  burstsTx := c.burstsTx.toNat
  burstsRx := c.burstsRx.toNat
  packetsTx := c.packetsTx.toNat
  packetsRx := c.packetsRx.toNat
  crcErrors := c.crcErrors.toNat
  hostTxDropped := c.hostTxDropped.toNat
  uartRingDrops := c.uartRingDrops.toNat
  stagingOverwrites := c.stagingOverwrites.toNat
  burstIdConflicts := c.burstIdConflicts.toNat
  hwRx := c.hwReceivedPackets.toNat
  hwCrc := c.hwCrcErrors.toNat
  hwLen := c.hwLengthErrors.toNat
  hwOk := c.hwCrcOk.toNat
  killed := c.parserFramesKilled.toNat

/-- The flags of a simulator beside the counters. -/
def simFlags (c : Counters) (mode : SimMode) (txQ : List (List UInt8)) : Counters :=
  { c with
    burstMode := if mode = .rx then 0 else 2
    zero25 := 0
    pendingTxValid := if txQ ≠ [] then 1 else 0
    restartRxPending := 0
    zero28 := 0
    pad := (0, 0, 0) }

theorem statsFrame_eq (c : Counters) (id : ℕ) (txQ : List (List UInt8)) (mode : SimMode) :
    SimDevice.statsFrame ⟨simStats c, id, txQ, mode⟩ c.uptimeMs.toNat =
      some (Emission.stats (simFlags c mode txQ)).bytes := by
  have hmode : (Field.unsigned 1 (if mode = .rx then 0 else 2)).pack =
      some [if mode = .rx then 0 else 2] := by
    split
    · exact unsigned_uint8 0
    · exact unsigned_uint8 2
  have hqueue : (Field.unsigned 1 (if txQ ≠ [] then 1 else 0)).pack =
      some [if txQ ≠ [] then 1 else 0] := by
    split
    · exact unsigned_uint8 1
    · exact unsigned_uint8 0
  have hzero : (Field.unsigned 1 0).pack = some [0] := unsigned_uint8 0
  have hbody := pack_uint32 c.burstsTx <| pack_uint32 c.burstsRx <| pack_uint32 c.packetsTx <|
    pack_uint32 c.packetsRx <| pack_uint32 c.crcErrors <| pack_uint32 c.hostTxDropped <|
    pack_cons hmode <| pack_cons hzero <| pack_cons hqueue <| pack_cons hzero <|
    pack_cons hzero <| pack_cons (pad_pack 3) <| pack_uint32 c.uptimeMs <|
    pack_uint32 c.uartRingDrops <| pack_uint32 c.stagingOverwrites <|
    pack_uint32 c.burstIdConflicts <| pack_uint32 c.hwReceivedPackets <|
    pack_uint32 c.hwCrcErrors <| pack_uint32 c.hwLengthErrors <| pack_uint32 c.hwCrcOk <|
    pack_uint32 c.parserFramesKilled pack_nil
  have hserialize : pack (SimDevice.statsFields ⟨simStats c, id, txQ, mode⟩ c.uptimeMs.toNat) =
      some (serialize (simFlags c mode txQ)) := by
    simp only [SimDevice.statsFields, simStats, hbody]
    simp [serialize, simFlags]
  rw [SimDevice.statsFrame, hserialize, Option.bind_eq_bind, Option.bind_some,
    SimDevice.frame_eq _ (by simp), Emission.bytes_stats, length_serialize]

/-! ## Replies -/

/-- A frame that both write, with its arguments. -/
inductive Reply where
  | ready (maxPayload : UInt16)
  | error (code : UInt8) (msg : List UInt8)
  | diag (event : UInt8) (val : UInt32)
  | stats (c : Counters) (mode : SimMode) (txQ : List (List UInt8))
  | rx (pkt : List UInt8) (h : pkt.length ≤ 24576) (rssi : Int16)

namespace Reply

def emission : Reply → Emission
  | ready maxPayload => .ready maxPayload
  | error code msg => .error code msg
  | diag event val => .diag event val
  | stats c mode txQ => .stats (simFlags c mode txQ)
  | rx pkt _ rssi => .rx pkt rssi

def simBytes : Reply → Option (List UInt8)
  | ready maxPayload => SimDevice.ready maxPayload.toNat
  | error code msg => SimDevice.error code.toNat msg
  | diag event val => SimDevice.diag event.toNat val.toNat
  | stats c mode txQ =>
    SimDevice.statsFrame { stats := simStats c, txQ := txQ, mode := mode } c.uptimeMs.toNat
  | rx pkt _ rssi => SimDevice.rxPacket pkt rssi.toInt

def isError : Reply → Bool
  | error _ _ => true
  | _ => false

end Reply

/-- The simulator writes what the service writes, exactly if it is not an error. -/
theorem simBytes_eq_iff (r : Reply) : r.simBytes = some r.emission.bytes ↔ r.isError = false := by
  cases r with
  | ready maxPayload => exact iff_of_true (SimDevice.ready_eq maxPayload) rfl
  | error code msg => exact iff_of_false (SimDevice.error_ne code msg) (by simp [Reply.isError])
  | diag event val => exact iff_of_true (SimDevice.diag_eq event val) rfl
  | stats c mode txQ => exact iff_of_true (statsFrame_eq c 1 txQ mode) rfl
  | rx pkt h rssi => exact iff_of_true (SimDevice.rxPacket_eq (by omega) rssi) rfl

/-- The refusal of a `CONFIG` of a wrong length. -/
theorem simBytes_bad_len :
    (Reply.error 0x03 (literal "bad len")).simBytes =
        some [0x45, 9, 0, 3, 7, 0x62, 0x61, 0x64, 0x20, 0x6c, 0x65, 0x6e] ∧
      (Reply.error 0x03 (literal "bad len")).emission.bytes =
        [0x45, 3, 7, 0x62, 0x61, 0x64, 0x20, 0x6c, 0x65, 0x6e] ∧
      ¬∀ r : Reply, r.simBytes = some r.emission.bytes := by
  refine ⟨by decide, by decide, fun h ↦ ?_⟩
  have hsame := h (.error 0x03 (literal "bad len"))
  revert hsame
  decide

end RadioService.Serial
