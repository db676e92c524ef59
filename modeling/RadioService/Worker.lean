import RadioService.WorkerState

/-!
# The radio worker: configuration, scanning and transmission

One definition per member function, in the order the worker class implements
them.  Readings that a function takes from outside (clock, driver status, IRQ
words) are its last argument.
-/

namespace RadioService

open Burst Traced

/-- Back to receiving, unless the role forbids it. -/
def armReceive : Work Unit := do
  let w ← read
  if !w.radioOk || w.cfg.role == 1 then
    return ()
  startReceive
  update fun w ↦ { w with st := { w.st with burstMode := 0, restartRxPending := 0 } }

/-! ## Initialisation -/

/-- The status words of the four stages of `beginFLRC`. -/
structure InitInput where
  common : Int16 := 0
  freqSt : Int16 := 0
  calibrateSt : Int16 := 0
  powerSt : Int16 := 0
deriving DecidableEq

def beginFLRC (io : InitInput) : Work Int16 := do
  radioCall (.beginCommon io.common)
  if io.common ≠ errNone then
    return io.common
  let st ← setFrequency 915000000 io.freqSt
  if st ≠ errNone then
    return st
  radioCall (.calibrate io.calibrateSt)
  if io.calibrateSt ≠ errNone then
    return io.calibrateSt
  setOutputPower kMaxSafeBenchTxPowerDbm io.powerSt

def init (powerGpio : ℕ) (io : InitInput) : Work Bool := do
  update fun w ↦ { w with powerGpio := powerGpio, inInit := true }
  issue (.powerSet powerGpio true)
  issue (.powerSet 42 false)
  let st ← beginFLRC io
  if st ≠ errNone then
    update fun w ↦ { w with inInit := false }
    return false
  radioCall .applyProfile
  update fun w ↦ { w with radioOk := true, st := { w.st with burstMode := 0 } }
  armReceive
  update fun w ↦ { w with inInit := false }
  return true

/-! ## Configuration -/

/-- The highest power a CONFIG may ask for at a thermal level. -/
def maxPower (thermalLevel : Int) : Int8 :=
  if thermalLevel ≥ 1 then kThrottledTxPowerDbm else kMaxSafeBenchTxPowerDbm

def clampConfig (thermalLevel : Int) (cfg : Config) : Config :=
  if cfg.txPowerDbm > maxPower thermalLevel then
    { cfg with txPowerDbm := maxPower thermalLevel }
  else
    cfg

/-- The test in front of the early return of `applyConfig`. -/
def configUnchanged (s : Settings) (clamped : Config) : Bool :=
  !s.scanActive && clamped.frequencyHz == s.cfg.frequencyHz &&
    clamped.txPowerDbm == s.cfg.txPowerDbm && clamped.role == s.cfg.role

/-- What `setFrequency` and `setOutputPower` report to `applyConfig`. -/
structure ConfigInput where
  freqSt : Int16 := 0
  powerSt : Int16 := 0
deriving DecidableEq

/-- `applyConfig` behind the standby; `prevPower` is the power stored before. -/
def retune (clamped : Config) (prevPower : Int8) (io : ConfigInput) :
    Work (Except String Unit) := do
  let st ← if clamped.frequencyHz > 0 then setFrequency clamped.frequencyHz io.freqSt
    else pure errNone
  if st ≠ errNone then
    armReceive
    return .error "set frequency failed"
  if clamped.txPowerDbm ≠ prevPower then
    discard (setOutputPower clamped.txPowerDbm io.powerSt)
  armReceive
  return .ok ()

def applyConfig (cfg : Config) (io : ConfigInput) : Work (Except String Unit) := do
  let w ← read
  if !w.radioOk then
    return .error "radio init failed"
  let clamped := clampConfig w.thermalLevel cfg
  if configUnchanged w.toSettings clamped then
    return .ok ()
  -- stored before the chip has taken it, and kept if the chip refuses
  update fun w ↦ { w with scanActive := false, cfg := clamped }
  standby
  retune clamped w.cfg.txPowerDbm io

/-! ## Scanning -/

/-- `startScan` behind the saving of the frequency. -/
def beginScan (p : ScanParams) (now : UInt32) (freqSt : Int16) : Work Unit := do
  update fun w ↦ { w with
    scan := p, scanIdx := 0, scanFrames := 0, scanConsensus := 0, scanBestRssi := -128,
    scanDwellUntil := now + p.dwellMs, scanActive := true,
    st := { w.st with pendingTxValid := 0 } }
  let w ← read
  if w.radioOk && p.startHz > 0 then
    standby
    discard (setFrequency p.startHz freqSt)
    update fun w ↦ { w with cfg := { w.cfg with frequencyHz := p.startHz } }
    armReceive

def startScan (p : ScanParams) (now : UInt32) (freqSt : Int16) : Work Unit := do
  let w ← read
  if !w.scanActive && w.cfg.frequencyHz > 0 then
    update fun w ↦ { w with preScanFreqHz := w.cfg.frequencyHz }
  beginScan p now freqSt

def channelHz (p : ScanParams) (idx : UInt8) : UInt32 := p.startHz + idx.toUInt32 * p.stepHz

/-- After the last channel: back to the frequency of before the scan. -/
def endScan (freqSt : Int16) : Work Unit := do
  update fun w ↦ { w with scanActive := false }
  let w ← read
  if w.radioOk && w.preScanFreqHz > 0 then
    standby
    discard (setFrequency w.preScanFreqHz freqSt)
    update fun w ↦ { w with cfg := { w.cfg with frequencyHz := w.preScanFreqHz } }
  armReceive

def nextChannel (now : UInt32) (freqSt : Int16) : Work Unit := do
  let w ← read
  let f := channelHz w.scan w.scanIdx
  standby
  discard (setFrequency f freqSt)
  update fun w ↦ { w with
    cfg := { w.cfg with frequencyHz := f }, scanFrames := 0, scanConsensus := 0,
    scanBestRssi := -128, scanDwellUntil := now + w.scan.dwellMs }
  armReceive

def scanTick (now : UInt32) (freqSt : Int16) : Work Unit := do
  let w ← read
  if w.scanConsensus == 0 && before now w.scanDwellUntil then
    return ()
  issue (.onScanResult (channelHz w.scan w.scanIdx) w.scanFrames w.scanConsensus w.scanBestRssi)
  update fun w ↦ { w with scanIdx := w.scanIdx + 1 }
  let w ← read
  if w.scanIdx ≥ w.scan.count then
    endScan freqSt
  else
    nextChannel now freqSt

/-! ## Transmission -/

def enqueueRefused (w : RadioWorker) : Bool := !w.radioOk || w.thermalLevel ≥ 2

/-- The part of `enqueueTx` under the queue lock. -/
def pushFrame (frame : TxFrame) : Work Terminal := do
  let w ← read
  if w.txQ.length ≥ 16 then
    update fun w ↦ { w with st := { w.st with hostTxDropped := w.st.hostTxDropped + 1 } }
    return .kBusy
  update fun w ↦ { w with txQ := w.txQ ++ [frame], st := { w.st with pendingTxValid := 1 } }
  return .kOk

def enqueueTx (frame : TxFrame) : Work Terminal := do
  let w ← read
  if enqueueRefused w then
    return .kBusy
  pushFrame frame

/-- One turn of the `TX_DONE` poll: the clock at the loop test, the IRQ word. -/
structure TxPoll where
  now : UInt32
  irq : UInt32
deriving DecidableEq

/-- One attempt at a packet: the status of `startTransmit`, the clock the
deadline is computed from, and the polls up to the last one made. -/
structure Attempt where
  st : Int16
  startMs : UInt32
  polls : List TxPoll
deriving DecidableEq

/-- What a burst sees: the monotonic clock and, for packet `idx`, attempt `k`. -/
structure BurstInput where
  tvSec : UInt32
  tvNsec : UInt32
  attempt : ℕ → ℕ → Attempt

/-- Whether `TX_DONE` came.  When the polls are used up the clock has reached
the deadline. -/
def waitTxDone (deadline : UInt32) : List TxPoll → Work Bool
  | [] => return false
  | p :: ps =>
    if before p.now deadline then do
      radioCall (.getClearIrqStatus p.irq)
      if irqHas p.irq irqTxDone then
        return true
      else if irqHas p.irq irqTimeout then
        return false
      else
        waitTxDone deadline ps
    else
      return false

/-- The attempts at one packet from attempt `k` on, with `n` still allowed. -/
def tryPacket (frame : TxFrame) (pkt : List UInt8) (attempt : ℕ → Attempt) :
    (k n : ℕ) → Work Bool
  | _, 0 => return false
  | k, n + 1 => do
    if k > 0 then
      standby
    let st ← startTransmit frame pkt (attempt k).st
    if st ≠ errNone then
      tryPacket frame pkt attempt (k + 1) n
    else
      let done ← waitTxDone ((attempt k).startMs + 25) (attempt k).polls
      finishTransmit
      if done then
        return true
      else
        tryPacket frame pkt attempt (k + 1) n

/-- How many packets a payload of `len` bytes takes, as the burst counts them. -/
def burstTotal (len : ℕ) : UInt16 :=
  UInt16.ofNat ((len + kChunk.toNat - 1) / kChunk.toNat)

/-- The lengths `transmitBurst` refuses. -/
def badBurstSize (len : ℕ) : Bool :=
  burstTotal len == 0 || burstTotal len > kMaxPackets || len > kMaxTotalPayload.toNat

/-- The id of a burst: counter and clock mixed, folded to 16 bits, never 0. -/
def burstId (tvSec tvNsec counter : UInt32) : UInt16 :=
  let entropy := tvNsec ^^^ (tvSec * 0x9E3779B9) ^^^ (counter * 0x85EBCA6B)
  let id := (entropy ^^^ (entropy >>> 16)).toUInt16
  if id = 0 then 1 else id

/-- The packets of a burst from `idx` on, with `n` still to send. -/
def sendPackets (frame : TxFrame) (id total : UInt16) (crc : UInt32)
    (attempt : ℕ → ℕ → Attempt) : (idx n : ℕ) → Work Bool
  | _, 0 => return true
  | idx, n + 1 => do
    let pkt := encodePacket id (UInt16.ofNat idx) total frame.payload
      (UInt32.ofNat frame.payload.length) crc
    let done ← tryPacket frame pkt (attempt idx) 0 3
    if !done then
      return false
    update fun w ↦ { w with st := { w.st with packetsTx := w.st.packetsTx + 1 } }
    sendPackets frame id total crc attempt (idx + 1) n

def transmitBurst (frame : TxFrame) (io : BurstInput) : Work Bool := do
  let len := frame.payload.length
  if badBurstSize len then
    return false
  let w ← read
  let id := burstId io.tvSec io.tvNsec w.burstIdCounter
  update fun w ↦ { w with
    burstIdCounter := w.burstIdCounter + 1, st := { w.st with burstsTx := w.st.burstsTx + 1 } }
  sendPackets frame id (burstTotal len) (crc32 frame.payload) io.attempt 0
    (burstTotal len).toNat

def txGateClosed (w : RadioWorker) : Bool :=
  w.cfg.role == 2 || w.scanActive || w.thermalLevel ≥ 2

/-- The part of `serviceTxQueue` under the queue lock. -/
def popFrame : Work (Option TxFrame) := do
  let w ← read
  match w.txQ with
  | [] => return none
  | frame :: rest =>
    update fun w ↦ { w with
      txQ := rest, st := { w.st with pendingTxValid := if rest.length > 0 then 1 else 0 } }
    return some frame

/-- The part of `serviceTxQueue` under the radio lock. -/
def burstFrame (frame : TxFrame) (io : BurstInput) : Work Bool := do
  standby
  update fun w ↦ { w with st := { w.st with burstMode := 2 } }
  let ok ← transmitBurst frame io
  update fun w ↦ { w with st := { w.st with burstMode := 0 } }
  armReceive
  return ok

/-- The terminal a finished burst is reported with. -/
def burstTerminal (ok : Bool) : Terminal := if ok then .kOk else .kDropped

def serviceTxQueue (io : BurstInput) : Work Unit := do
  let w ← read
  if txGateClosed w then
    return ()
  match ← popFrame with
  | none => return ()
  | some frame =>
    let ok ← burstFrame frame io
    issue (.onTxTerminal frame (burstTerminal ok))

end RadioService
