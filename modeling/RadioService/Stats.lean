import RadioService.Machine.Bytes

/-!
# The counters behind the stats frame
-/

namespace RadioService.Stats

open Bytes

structure Counters where
  burstsTx : UInt32 := 0
  burstsRx : UInt32 := 0
  packetsTx : UInt32 := 0
  packetsRx : UInt32 := 0
  crcErrors : UInt32 := 0
  hostTxDropped : UInt32 := 0
  /-- 0 = RX, 1 = TX_ABORTING, 2 = TX -/
  burstMode : UInt8 := 0
  zero25 : UInt8 := 0
  pendingTxValid : UInt8 := 0
  restartRxPending : UInt8 := 0
  zero28 : UInt8 := 0
  pad : UInt8 × UInt8 × UInt8 := (0, 0, 0)
  uptimeMs : UInt32 := 0
  uartRingDrops : UInt32 := 0
  stagingOverwrites : UInt32 := 0
  burstIdConflicts : UInt32 := 0
  hwReceivedPackets : UInt32 := 0
  hwCrcErrors : UInt32 := 0
  hwLengthErrors : UInt32 := 0
  hwCrcOk : UInt32 := 0
  parserFramesKilled : UInt32 := 0
deriving DecidableEq

/-- The struct as `memcpy` copies it out on a little-endian core. -/
def serialize (c : Counters) : List UInt8 :=
  le32 c.burstsTx ++ le32 c.burstsRx ++ le32 c.packetsTx ++ le32 c.packetsRx ++
    le32 c.crcErrors ++ le32 c.hostTxDropped ++
    [c.burstMode, c.zero25, c.pendingTxValid, c.restartRxPending, c.zero28,
      c.pad.1, c.pad.2.1, c.pad.2.2] ++
    le32 c.uptimeMs ++ le32 c.uartRingDrops ++ le32 c.stagingOverwrites ++
    le32 c.burstIdConflicts ++ le32 c.hwReceivedPackets ++ le32 c.hwCrcErrors ++
    le32 c.hwLengthErrors ++ le32 c.hwCrcOk ++ le32 c.parserFramesKilled

@[simp] theorem length_serialize (c : Counters) : (serialize c).length = 68 := by
  simp [serialize]

end RadioService.Stats
