import Mathlib.Data.Rat.Defs
import RadioService.Machine.Traced
import RadioService.Burst
import RadioService.Stats

/-!
# The radio worker's state and what it does to the world

`RadioWorker` holds the fields of the worker class together with what the
chip was last told.  Everything the worker does outside its own fields is an
`Effect`; calls that answer carry their answer, which the caller supplies.
A frequency is named by the value in Hz that the call's argument in MHz is
computed from.
-/

namespace RadioService

open Burst Stats

/-! ## Data -/

inductive Terminal where
  | kOk
  | kBusy
  | kFailed
  | kDropped
deriving DecidableEq

def Terminal.code : Terminal → UInt8
  | .kOk => 0
  | .kBusy => 4
  | .kFailed => 5
  | .kDropped => 6

structure Config where
  frequencyHz : UInt32 := 915000000
  txPowerDbm : Int8 := 10
  role : UInt8 := 0
deriving DecidableEq

structure ScanParams where
  startHz : UInt32 := 902000000
  stepHz : UInt32 := 1000000
  count : UInt8 := 27
  dwellMs : UInt32 := 300
deriving DecidableEq

/-- A queued frame: the byte vector, and the number of the `enqueueTx` call
that brought it.  No branch of the code looks at the number. -/
structure TxFrame where
  call : ℕ
  payload : List UInt8
deriving DecidableEq

def kMaxSafeBenchTxPowerDbm : Int8 := 10
def kThrottledTxPowerDbm : Int8 := 4

def errNone : Int16 := 0

def irqLoraHeaderError : UInt32 := (1 : UInt32) <<< 9
def irqRxDone : UInt32 := (1 : UInt32) <<< 18
def irqTxDone : UInt32 := (1 : UInt32) <<< 19
def irqTimeout : UInt32 := (1 : UInt32) <<< 21
def irqCrcError : UInt32 := (1 : UInt32) <<< 22
def irqLenError : UInt32 := (1 : UInt32) <<< 23

/-- Some bit of `mask` is set. -/
def irqHas (irq mask : UInt32) : Bool := irq &&& mask != 0

/-- `static_cast<int32_t>(now - deadline) < 0`. -/
def before (now deadline : UInt32) : Bool := (now - deadline).toInt32 < 0

/-! ## Effects -/

inductive RadioOp where
  | beginCommon (st : Int16)
  | calibrate (st : Int16)
  | applyProfile
  | standby
  | setFrequency (hz : UInt32) (st : Int16)
  | setOutputPower (dbm : Int8) (st : Int16)
  | startReceive
  | startTransmit (frame : TxFrame) (pkt : List UInt8) (st : Int16)
  | finishTransmit
  | getClearIrqStatus (irq : UInt32)
  | getRxFifoLevel (level : UInt16)
  | getPacketStatusFLRC (rssi : Int16)
  | readData (pkt : Packet) (rssi : Int16) (st : Int16)
  | clearRxBuffer
deriving DecidableEq

inductive Effect where
  | radio (op : RadioOp)
  | powerSet (gpio : ℕ) (high : Bool)
  | setCpuStage (stage : Int)
  | onRxPacket (pkt : Packet) (rssi : Int16)
  | onTxTerminal (frame : TxFrame) (t : Terminal)
  | onScanResult (freqHz frames consensus : UInt32) (bestRssi : Int8)
deriving DecidableEq

/-! ## State -/

/-- The last mode-changing operation issued to the chip. -/
inductive ChipMode where
  | standby
  | receive
  | transmit
deriving DecidableEq

/-- The fields that receiving and transmitting leave alone. -/
structure Settings where
  radioOk : Bool := false
  powerGpio : ℕ := 44
  thermalLevel : Int := 0
  thermalPoweredDown : Bool := false
  lastThermalCheckMs : UInt32 := 0
  fanOn : Bool := false
  pmInitialized : Bool := false
  cpuDvfsStage : Int := -1
  cfg : Config := {}
  scan : ScanParams := {}
  scanActive : Bool := false
  preScanFreqHz : UInt32 := 915000000
  scanIdx : UInt8 := 0
  scanDwellUntil : UInt32 := 0
  /-- Last frequency the chip accepted. -/
  chipFreqHz : UInt32 := 0
  /-- Last output power the chip accepted. -/
  chipPowerDbm : Int8 := 0
  /-- Set while `init` runs. -/
  inInit : Bool := false
deriving DecidableEq

structure RadioWorker extends Settings where
  scanFrames : UInt32 := 0
  scanConsensus : UInt32 := 0
  scanBestRssi : Int8 := -128
  txQ : List TxFrame := []
  st : Counters := {}
  burstIdCounter : UInt32 := 1
  chipMode : ChipMode := .standby
deriving DecidableEq

abbrev Work := Traced RadioWorker Effect

open Traced

/-! ## Calls into the driver -/

def radioCall (op : RadioOp) : Work Unit := issue (.radio op)

def standby : Work Unit := do
  radioCall .standby
  update fun w ↦ { w with chipMode := .standby }

/-- The chip takes the frequency exactly when the call reports no error. -/
def setFrequency (hz : UInt32) (st : Int16) : Work Int16 := do
  radioCall (.setFrequency hz st)
  if st = errNone then
    update fun w ↦ { w with chipFreqHz := hz }
  return st

def setOutputPower (dbm : Int8) (st : Int16) : Work Int16 := do
  radioCall (.setOutputPower dbm st)
  if st = errNone then
    update fun w ↦ { w with chipPowerDbm := dbm }
  return st

/-- The signed half-dBm byte that reaches `setTxParams`: the driver doubles
the power in eight bits. -/
def halfDbm (dbm : Int8) : Int8 := dbm * 2

def startReceive : Work Unit := do
  radioCall .startReceive
  update fun w ↦ { w with chipMode := .receive }

def startTransmit (frame : TxFrame) (pkt : List UInt8) (st : Int16) : Work Int16 := do
  radioCall (.startTransmit frame pkt st)
  update fun w ↦ { w with chipMode := .transmit }
  return st

def finishTransmit : Work Unit := do
  radioCall .finishTransmit
  update fun w ↦ { w with chipMode := .standby }

end RadioService
