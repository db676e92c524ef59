import RadioService.Driver.Spi

/-!
# The radio driver: the calls of the worker

The members of `LR20xx` and `LR2021` that the worker calls behind the start of
the radio, as sequences of transfers.  A frequency in Hz is turned into MHz and
back in floating point, which `toHz` stands for; `isLow` is the comparison with
1600 MHz.
-/

namespace RadioService.Driver

open Traced

def packetTypeLoRa : UInt8 := 0x00
def packetTypeFSK : UInt8 := 0x02
def packetTypeFLRC : UInt8 := 0x05
def packetTypeLRFHSS : UInt8 := 0x07

def irqAll : UInt32 := 0xFFFF07FF
def standbyRC : UInt8 := 0x00
def txTimeoutNone : UInt32 := 0x000000
def rxTimeoutInf : UInt32 := 0xFFFFFF
def paRamp2us : UInt8 := 0x00
def flrcPreambleLen32Bits : UInt8 := 0x07
def flrcSyncwordLength4Bytes : UInt8 := 0x02
def flrcRxMatchSyncword1 : UInt8 := 0x01
def flrcCrc2Bytes : UInt8 := 0x01
def loraHeaderImplicit : UInt8 := 0x01
def maxPacketLength : ℕ := 511
def spiMaxReadWriteLen : ℕ := 512

section

variable (miso : ℕ → ℕ → UInt8)

/-! ## Commands -/

def standby : Spi Int16 := writeCommand miso cmdSetStandby [standbyRC]

def clearIrq (irq : UInt32) : Spi Int16 := writeCommand miso cmdClearIrq (be32 irq)

def clearRxBuffer : Spi Int16 := writeCommand miso cmdClearRxBuffer []

def clearTxBuffer : Spi Int16 := writeCommand miso cmdClearTxBuffer []

def setRx (timeout : UInt32) : Spi Int16 := writeCommand miso cmdSetRx (be24 timeout)

def setTx (timeout : UInt32) : Spi Int16 := writeCommand miso cmdSetTx (be24 timeout)

def setRfFrequency (rfFreq : UInt32) : Spi Int16 :=
  writeCommand miso cmdSetRfFrequency (be32 rfFreq)

def setTxParams (pwr : Int8) (ramp : UInt8) : Spi Int16 :=
  writeCommand miso cmdSetTxParams [pwr.toUInt8, ramp]

def setPacketParamsLoRa (preambleLen : UInt16) (hdrType payloadLen crcType : UInt8)
    (invertIQ : Bool) : Spi Int16 :=
  writeCommand miso cmdSetPacketParamsLoRa
    (be16 preambleLen ++ [payloadLen, (hdrType <<< 2) ||| (crcType <<< 1) ||| invertIQ.toUInt8])

def setPacketParamsFLRC (preambleLen syncWordLen matchSyncWord hdrType : UInt8)
    (payloadLen : UInt16) (crcType : UInt8) : Spi Int16 :=
  writeCommand miso cmdSetPacketParamsFLRC
    ([((preambleLen &&& 0xF) <<< 2) ||| (syncWordLen &&& 0x3),
      ((matchSyncWord &&& 0x3) <<< 6) ||| ((matchSyncWord &&& 0x7) <<< 3) |||
        ((hdrType &&& 0x1) <<< 2) ||| (crcType &&& 0x3)] ++ be16 payloadLen)

/-- `calibrate_front_end`: one frequency in steps of 4 MHz, and its path. -/
def calibrateFrontEnd (low : Bool) (freq : UInt32) : Spi Int16 :=
  let path : UInt16 := if low then 0x0000 else 0x8000
  writeCommand miso cmdCalibrateFrontEnd
    (be16 (path ||| ((freq + 4000000 - 1) / 4000000).toUInt16) ++ [0, 0, 0, 0])

def getPacketType : Spi (Int16 × UInt8) := do
  let (state, buff) ← readCommand miso cmdGetPacketType 1
  return (state, buff.getD 0 0)

def getClearIrqStatus : Spi UInt32 := do
  let (_, buff) ← readCommand miso cmdGetClearIrqStatus 4
  return ((buff.getD 0 0).toUInt32 <<< 24) ||| ((buff.getD 1 0).toUInt32 <<< 16) |||
    ((buff.getD 2 0).toUInt32 <<< 8) ||| (buff.getD 3 0).toUInt32

def getRxFifoLevel : Spi UInt16 := do
  let (state, buff) ← readCommand miso cmdGetRxFifoLevel 2
  return if state = errNone then
    ((buff.getD 0 0).toUInt16 <<< 8) + (buff.getD 1 0).toUInt16
  else 0

/-- The status, and bytes 2 and 4 of the answer, which hold the average RSSI. -/
def getPacketStatusFLRC : Spi (Int16 × UInt8 × UInt8) := do
  let (state, buff) ← readCommand miso cmdGetPacketStatusFLRC 5
  return (state, buff.getD 2 0, buff.getD 4 0)

/-! ## The buffers -/

/-- The loop of `writeBuffer8`, with `n` turns allowed. -/
def writeChunks (data : List UInt8) : (off n : ℕ) → Spi Int16
  | _, 0 => return errNone
  | off, n + 1 => do
    if off < data.length then
      let chunk := if data.length - off > 128 then 128 else data.length - off
      asserting (writeCommand miso cmdWriteBuffer ((data.drop off).take chunk))
        (writeChunks data (off + chunk) n)
    else
      return errNone

def writeBuffer8 (data : List UInt8) : Spi Int16 := do
  if data.length > spiMaxReadWriteLen then
    return errSpiCmdInvalid
  else
    writeChunks miso data 0 data.length

/-- One pop of the FIFO in `readBuffer8`; no status is read behind the command. -/
def popChunk (chunk : ℕ) : Spi (Int16 × List UInt8) := do
  update fun d ↦ { d with statusWidth := 0 }
  let answer ← transferStream miso (be16 cmdReadBuffer) false [] chunk
  update fun d ↦ { d with statusWidth := 16 }
  return answer

/-- The loop of `readBuffer8`, with `n` turns allowed, and the data read. -/
def readChunks (len : ℕ) : (off n : ℕ) → Spi (Int16 × List UInt8)
  | _, 0 => return (errNone, [])
  | off, n + 1 => do
    if off < len then
      let chunk := if len - off > 128 then 128 else len - off
      let (state, data) ← popChunk miso chunk
      if state ≠ errNone then
        return (state, data)
      else
        let (state, rest) ← readChunks len (off + chunk) n
        return (state, data ++ rest)
    else
      return (errNone, [])

def readBuffer8 (len : ℕ) : Spi (Int16 × List UInt8) := do
  if len > spiMaxReadWriteLen then
    return (errSpiCmdInvalid, [])
  else
    readChunks miso len 0 len

/-! ## Members called by the worker -/

/-- The parameters that `startTransmit` sets for the packet type of the chip.  What
the chip says to those of LoRa is not looked at. -/
def setLength (modem : UInt8) (len : ℕ) : Spi Int16 := do
  if modem = packetTypeLoRa then
    update fun d ↦ { d with implicitLen := len }
    let d ← read
    discard (setPacketParamsLoRa miso d.preambleLengthLoRa d.headerType (UInt8.ofNat len)
      d.crcTypeLoRa d.invertIQEnabled)
    return errNone
  else if modem = packetTypeFSK then
    return errNone
  else if modem = packetTypeFLRC then
    update fun d ↦ { d with
      headerType := 0, implicitLen := len, preambleLengthFLRC := flrcPreambleLen32Bits
      crcTypeFLRC := flrcCrc2Bytes }
    let d ← read
    setPacketParamsFLRC miso d.preambleLengthFLRC flrcSyncwordLength4Bytes flrcRxMatchSyncword1
      d.headerType (UInt16.ofNat len) d.crcTypeFLRC
  else if modem ≠ packetTypeLRFHSS then
    return errUnknown
  else
    return errNone

/-- `startTransmit` behind the packet parameters. -/
def loadAndSend (data : List UInt8) : Spi Int16 :=
  asserting (clearIrq miso irqAll) <| asserting (clearTxBuffer miso) <|
    asserting (writeBuffer8 miso data) (setTx miso txTimeoutNone)

def startTransmit (data : List UInt8) : Spi Int16 := do
  let d ← read
  if data.length > maxPacketLength ∨ d.addrComp ≠ 0 ∧ data.length > maxPacketLength - 1 then
    return errPacketTooLong
  else
    let (state, modem) ← getPacketType miso
    if state ≠ errNone then
      return state
    else
      asserting (setLength miso modem data.length) (loadAndSend miso data)

def finishTransmit : Spi Int16 := do
  discard (clearIrq miso irqAll)
  standby miso

/-- The packet parameters that `startReceive` sets. -/
def setReceiveLength (modem : UInt8) : Spi Int16 := do
  let d ← read
  if d.headerType = loraHeaderImplicit ∧ modem = packetTypeLoRa then
    setPacketParamsLoRa miso d.preambleLengthLoRa d.headerType (UInt8.ofNat d.implicitLen)
      d.crcTypeLoRa d.invertIQEnabled
  else if modem = packetTypeFLRC then
    update fun d ↦ { d with
      headerType := 0, implicitLen := 511, preambleLengthFLRC := flrcPreambleLen32Bits
      crcTypeFLRC := flrcCrc2Bytes }
    let d ← read
    setPacketParamsFLRC miso d.preambleLengthFLRC flrcSyncwordLength4Bytes flrcRxMatchSyncword1
      d.headerType (UInt16.ofNat d.implicitLen) d.crcTypeFLRC
  else
    return errNone

def startReceive : Spi Int16 := do
  let (state, modem) ← getPacketType miso
  if state ≠ errNone then
    return state
  else if modem ≠ packetTypeLoRa ∧ modem ≠ packetTypeFSK ∧ modem ≠ packetTypeLRFHSS ∧
      modem ≠ packetTypeFLRC then
    return errWrongModem
  else
    asserting (clearIrq miso irqAll) <| asserting (clearRxBuffer miso) <|
      asserting (setReceiveLength miso modem) (setRx miso rxTimeoutInf)

def readData (len : ℕ) : Spi (Int16 × List UInt8) := readBuffer8 miso len

variable (toHz : UInt32 → UInt32) (isLow : UInt32 → Bool)

/-- The first call in the life of the process calibrates the front end. -/
def setFrequency (hz : UInt32) : Spi Int16 := do
  let d ← read
  update fun d ↦ { d with feCalibrated := true }
  if d.feCalibrated then
    setRfFrequency miso (toHz hz)
  else
    asserting (calibrateFrontEnd miso (isLow hz) (toHz hz)) (setRfFrequency miso (toHz hz))

def setOutputPower (power : Int8) : Spi Int16 := setTxParams miso (power * 2) paRamp2us

end

end RadioService.Driver
