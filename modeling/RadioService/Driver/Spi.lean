import RadioService.Machine.Traced
import RadioService.WorkerState

/-!
# The radio driver: transfers over SPI

The lowest layer of the vendored driver, as far as it is used for this radio.
The module is built without a BUSY pin, so that no transfer waits for one.  What
the chip shifts out is not up to the driver: byte `i` of transfer `k` is
`miso k i`.
-/

namespace RadioService.Driver

open Traced

/-- The fields of `LR20xx` and of its `Module` that the calls of the worker use,
and the number of transfers made. -/
structure LR2021 where
  cmdWidth : ℕ := 16
  statusWidth : ℕ := 16
  transfers : ℕ := 0
  addrComp : UInt8 := 0
  headerType : UInt8 := 0
  implicitLen : ℕ := 0
  preambleLengthLoRa : UInt16 := 0
  crcTypeLoRa : UInt8 := 0
  invertIQEnabled : Bool := false
  preambleLengthFLRC : UInt8 := 0
  crcTypeFLRC : UInt8 := 0
  /-- `s_fe_calibrated` of `setFrequency`. -/
  feCalibrated : Bool := false
deriving DecidableEq

/-- What was shifted out, and what came in meanwhile. -/
structure Transfer where
  out : List UInt8
  inBytes : List UInt8
deriving DecidableEq

abbrev Spi := Traced LR2021 Transfer

def errUnknown : Int16 := -1
def errChipNotFound : Int16 := -2
def errPacketTooLong : Int16 := -4
def errWrongModem : Int16 := -20
def errSpiCmdInvalid : Int16 := -706
def errSpiCmdFailed : Int16 := -707

def cmdNop : UInt16 := 0x0000
def cmdReadBuffer : UInt16 := 0x0001
def cmdWriteBuffer : UInt16 := 0x0002
def cmdClearIrq : UInt16 := 0x0116
def cmdGetClearIrqStatus : UInt16 := 0x0117
def cmdGetRxFifoLevel : UInt16 := 0x011C
def cmdClearRxBuffer : UInt16 := 0x011E
def cmdClearTxBuffer : UInt16 := 0x011F
def cmdCalibrateFrontEnd : UInt16 := 0x0123
def cmdSetStandby : UInt16 := 0x0128
def cmdSetRfFrequency : UInt16 := 0x0200
def cmdSetTxParams : UInt16 := 0x0203
def cmdGetPacketType : UInt16 := 0x0208
def cmdSetRx : UInt16 := 0x020C
def cmdSetTx : UInt16 := 0x020D
def cmdSetPacketParamsLoRa : UInt16 := 0x0221
def cmdSetPacketParamsFLRC : UInt16 := 0x0249
def cmdGetPacketStatusFLRC : UInt16 := 0x024B

/-- The two bytes of a word, high byte first. -/
def be16 (v : UInt16) : List UInt8 := [(v >>> 8).toUInt8, v.toUInt8]

def be24 (v : UInt32) : List UInt8 := [(v >>> 16).toUInt8, (v >>> 8).toUInt8, v.toUInt8]

def be32 (v : UInt32) : List UInt8 := (v >>> 24).toUInt8 :: be24 v

/-- `SPIparseStatus`. -/
def parseStatus (b : UInt8) : Int16 :=
  let status : UInt8 := b &&& 0b00001110
  if status = (0x01 : UInt8) <<< 1 then errSpiCmdInvalid
  else if status = (0x00 : UInt8) <<< 1 then errSpiCmdFailed
  else if b = 0x00 ∨ b = 0xFF then errChipNotFound
  else errNone

/-- `RADIOLIB_ASSERT` of the status of `m`, and what stands behind it. -/
def asserting (m g : Spi Int16) : Spi Int16 := do
  let state ← m
  if state ≠ errNone then
    return state
  else
    g

section

variable (miso : ℕ → ℕ → UInt8)

/-- `SPItransferStream`: the status, and for a read the data. -/
def transferStream (cmd : List UInt8) (write : Bool) (dataOut : List UInt8) (numBytes : ℕ) :
    Spi (Int16 × List UInt8) := do
  let d ← read
  let statusLen := if write then 0 else d.statusWidth / 8
  let buffOut := cmd ++ if write then dataOut else List.replicate (numBytes + statusLen) 0
  let buffIn := (List.range buffOut.length).map (miso d.transfers)
  issue ⟨buffOut, buffIn⟩
  update fun d ↦ { d with transfers := d.transfers + 1 }
  let state := if numBytes > 0 then parseStatus (buffIn.getD 0 0) else errNone
  return (state, if write then [] else (buffIn.drop (cmd.length + statusLen)).take numBytes)

/-- `SPIcheckStatus`: six bytes are shifted, the first is the status. -/
def checkStatus : Spi Int16 := do
  update fun d ↦ { d with statusWidth := 0 }
  let (state, buff) ← transferStream miso [] false [] 6
  update fun d ↦ { d with statusWidth := 16 }
  if state ≠ errNone then
    return state
  else
    return parseStatus (buff.getD 0 0)

/-- The command bytes of `SPIreadStream` and `SPIwriteStream`. -/
def commandBytes (width : ℕ) (cmd : UInt16) : List UInt8 := (be16 cmd).drop (2 - width / 8)

def writeStream (cmd : UInt16) (data : List UInt8) (verify : Bool) : Spi Int16 := do
  let d ← read
  let (state, _) ← transferStream miso (commandBytes d.cmdWidth cmd) true data data.length
  if state ≠ errNone then
    return state
  else if verify then
    checkStatus miso
  else
    return state

/-- `SPIreadStream`; the worker's calls never ask for the check behind it. -/
def readStream (cmd : UInt16) (numBytes : ℕ) : Spi (Int16 × List UInt8) := do
  let d ← read
  transferStream miso (commandBytes d.cmdWidth cmd) false [] numBytes

/-- `SPIcommand` with `write`. -/
def writeCommand (cmd : UInt16) (data : List UInt8) : Spi Int16 := writeStream miso cmd data true

/-- `SPIcommand` without `write`: the command and its answer are two transfers. -/
def readCommand (cmd : UInt16) (len : ℕ) : Spi (Int16 × List UInt8) := do
  let state ← writeStream miso cmd [] false
  if state ≠ errNone then
    return (state, List.replicate len 0)
  else
    update fun d ↦ { d with cmdWidth := 0 }
    let answer ← readStream miso cmdNop len
    update fun d ↦ { d with cmdWidth := 16 }
    return answer

end

end RadioService.Driver
