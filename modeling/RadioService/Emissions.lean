import RadioService.WorkerState

/-!
# Frames to the host

The writers of the serial server, one definition each: the buffers they pass to
`writeAll`, in order.  An `Emission` is a call of one of them.
-/

namespace RadioService.Serial

open Bytes Stats

/-- The characters before the terminating zero. -/
def cString (msg : List UInt8) : List UInt8 := msg.takeWhile (· ≠ 0)

def literal (s : String) : List UInt8 := s.toList.map fun c ↦ UInt8.ofNat c.toNat

/-! ## The writers -/

def tagG : UInt8 := 0x47
def tagE : UInt8 := 0x45
def tagStats : UInt8 := 0x53
def tagR : UInt8 := 0x52
def tagD : UInt8 := 0x44

def lenBytes (len : ℕ) : List UInt8 := le16 (UInt16.ofNat len)

def writeFrame (tag : UInt8) (payload : List UInt8) : List (List UInt8) :=
  (tag :: lenBytes payload.length) :: if payload.length ≠ 0 then [payload] else []

def writeReady (maxPayload : UInt16) : List (List UInt8) := [tagG :: le16 maxPayload]

def writeError (code : UInt8) (msg : List UInt8) : List (List UInt8) :=
  let msg := (cString msg).take 64
  [[tagE, code, UInt8.ofNat msg.length] ++ msg]

/-- The counters, with the uptime and the kills of the parser put in. -/
def statsFrame (st : Counters) (nowMs killed : UInt32) : Counters :=
  { st with uptimeMs := nowMs, parserFramesKilled := killed }

def writeStats (c : Counters) : List (List UInt8) := writeFrame tagStats (serialize c)

/-- A packet that fits the buffer is written at once, a longer one in three parts. -/
def writeRx (pkt : List UInt8) (rssi : Int16) : List (List UInt8) :=
  if pkt.length ≤ 512 then
    [tagR :: lenBytes pkt.length ++ pkt ++ le16 rssi.toUInt16]
  else
    [tagR :: lenBytes pkt.length, pkt, le16 rssi.toUInt16]

def writeDiag (event : UInt8) (val : UInt32) : List (List UInt8) :=
  writeFrame tagD (event :: le32 val ++ [0])

/-! ## Emissions -/

inductive Emission where
  | ready (maxPayload : UInt16)
  | error (code : UInt8) (msg : List UInt8)
  | stats (c : Counters)
  | rx (pkt : List UInt8) (rssi : Int16)
  | diag (event : UInt8) (val : UInt32)
deriving DecidableEq

namespace Emission

def pieces : Emission → List (List UInt8)
  | ready maxPayload => writeReady maxPayload
  | error code msg => writeError code msg
  | stats c => writeStats c
  | rx pkt rssi => writeRx pkt rssi
  | diag event val => writeDiag event val

def bytes (e : Emission) : List UInt8 := e.pieces.flatten

theorem bytes_stats (c : Counters) :
    (stats c).bytes = tagStats :: lenBytes 68 ++ serialize c := by
  simp [bytes, pieces, writeStats, writeFrame]

/-- Both ways of writing a packet put the same bytes on the wire. -/
theorem bytes_rx (pkt : List UInt8) (rssi : Int16) :
    (rx pkt rssi).bytes = tagR :: lenBytes pkt.length ++ pkt ++ le16 rssi.toUInt16 := by
  change (writeRx pkt rssi).flatten = _
  unfold writeRx
  split <;> simp

theorem bytes_diag (event : UInt8) (val : UInt32) :
    (diag event val).bytes = tagD :: lenBytes 6 ++ (event :: le32 val ++ [0]) := by
  simp [bytes, pieces, writeDiag, writeFrame]

end Emission

/-! ## Callbacks of the worker -/

def onWorkerTerminal (t : Terminal) : Emission :=
  if t = .kOk then
    .ready 511
  else
    .error t.code (literal (if t.code = 0x05 then "tx aborted" else "tx dropped"))

def onWorkerScan (freqHz frames consensus : UInt32) (bestRssi : Int8) : List Emission :=
  [.diag 50 freqHz, .diag 51 frames, .diag 52 consensus,
    .diag 53 (bestRssi.toInt32 + 128).toUInt32]

/-- The frames that the server writes for what the worker calls back. -/
def onWorkerEffect : Effect → List Emission
  | .onRxPacket pkt rssi => [.rx pkt.bytes rssi]
  | .onTxTerminal _ t => [onWorkerTerminal t]
  | .onScanResult freqHz frames consensus bestRssi =>
    onWorkerScan freqHz frames consensus bestRssi
  | _ => []

theorem onWorkerTerminal_eq_ready {t : Terminal} : onWorkerTerminal t = .ready 511 ↔ t = .kOk := by
  cases t <;> simp [onWorkerTerminal]

end RadioService.Serial
