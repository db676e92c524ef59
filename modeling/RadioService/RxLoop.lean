import RadioService.Thermal

/-!
# One poll of the radio worker

`pollOnce` ticks the thermal guard and a running scan, drains the receive FIFO
of the chip and services the transmit queue.  The receive loop parks the
packets of an unfinished burst and hands them up together.
-/

namespace RadioService

open Burst Traced

/-! ## The receive loop -/

/-- The answers one turn of the loop can ask for. -/
structure RxStep where
  irq : UInt32
  /-- FIFO level when no IRQ bit asks for anything. -/
  idleLevel : UInt16
  idleNow : UInt32
  /-- FIFO level in front of a read. -/
  rxLevel : UInt16
  /-- Status bytes 2 and 4 of `getPacketStatusFLRC`. -/
  rssiAvg : UInt8
  rssiLow : UInt8
  readSt : Int16
  pkt : Packet
  burstNow : UInt32
  /-- FIFO level behind the last packet of a burst. -/
  afterLevel : UInt16
  afterNow : UInt32
  /-- Clock at the deadline test. -/
  deadlineNow : UInt32
deriving DecidableEq

/-- A silent radio, and a clock that has reached `deadline`. -/
def RxStep.silent (deadline : UInt32) : RxStep where
  irq := 0
  idleLevel := 0
  idleNow := deadline
  rxLevel := 0
  rssiAvg := 0
  rssiLow := 0
  readSt := 0
  pkt := ⟨List.replicate kPacketPayload.toNat 0, List.length_replicate⟩
  burstNow := deadline
  afterLevel := 0
  afterNow := deadline
  deadlineNow := deadline

/-- The local variables that survive a turn of the loop. -/
structure RxLocals where
  inBurst : Bool := false
  burstDeadlineMs : UInt32 := 0
  queue : List (Packet × Int16) := []
  checkFifoAfterRx : Bool := false
deriving DecidableEq

inductive RxNext where
  | again (l : RxLocals)
  | leave
deriving DecidableEq

/-- `-(2 * avg + low) / 2` dBm, truncated to an integer. -/
def rssiOf (avg low : UInt8) : Int16 :=
  Int16.ofInt (Int.tdiv (-(2 * avg.toNat + (low &&& 1).toNat : ℕ)) 2)

def packetErrors : UInt32 := irqCrcError ||| irqLenError ||| irqLoraHeaderError

def countCrcError (w : RadioWorker) : RadioWorker :=
  { w with st := { w.st with
    crcErrors := w.st.crcErrors + 1, hwCrcErrors := w.st.hwCrcErrors + 1 } }

def countLengthError (w : RadioWorker) : RadioWorker :=
  { w with st := { w.st with hwLengthErrors := w.st.hwLengthErrors + 1 } }

/-- The counters of a packet read successfully, the scan's among them. -/
def countRead (pkt : Packet) (rssi : Int16) (w : RadioWorker) : RadioWorker :=
  { w with
    st := { w.st with
      packetsRx := w.st.packetsRx + 1
      hwReceivedPackets := w.st.hwReceivedPackets + 1
      hwCrcOk := w.st.hwCrcOk + 1 }
    scanBestRssi :=
      if rssi.toInt > w.scanBestRssi.toInt && w.scanActive then rssi.toInt8 else w.scanBestRssi
    scanConsensus :=
      if w.scanActive && isConsensusPrefix pkt.bytes then w.scanConsensus + 1
      else w.scanConsensus
    scanFrames := if w.scanActive then w.scanFrames + 1 else w.scanFrames }

def setBurstMode (mode : UInt8) (w : RadioWorker) : RadioWorker :=
  { w with st := { w.st with burstMode := mode } }

/-- Whether a packet is to be read, from the IRQ word or from the FIFO level. -/
def rxSense (i : RxStep) (l : RxLocals) : Work (Bool × RxLocals) := do
  radioCall (.getClearIrqStatus i.irq)
  let hasErr := irqHas i.irq (packetErrors ||| irqTimeout)
  let hasRx := irqHas i.irq irqRxDone
  let l' := { l with checkFifoAfterRx := false }
  if !hasRx && !hasErr then
    radioCall (.getRxFifoLevel i.idleLevel)
    if l.checkFifoAfterRx && i.idleLevel ≥ kPacketPayload then
      return (true, l')
    else if i.idleLevel > 0 && !l.inBurst then
      return (false, { l' with inBurst := true, burstDeadlineMs := i.idleNow + 4 })
    else
      return (false, l')
  else
    return (hasRx, l')

/-- The branch of a pending packet: an error, a FIFO too short to read, or a
read. -/
def rxRead (i : RxStep) (l : RxLocals) : Work (Option (Packet × Int16) × RxLocals) := do
  radioCall (.getRxFifoLevel i.rxLevel)
  if irqHas i.irq packetErrors then
    update (if irqHas i.irq irqCrcError then countCrcError else countLengthError)
    radioCall .clearRxBuffer
    armReceive
    return (none, { l with inBurst := false })
  else if i.rxLevel < kPacketPayload then
    if i.rxLevel > 0 then
      radioCall .clearRxBuffer
      armReceive
    return (none, { l with inBurst := false })
  else
    let rssi := rssiOf i.rssiAvg i.rssiLow
    radioCall (.getPacketStatusFLRC rssi)
    radioCall (.readData i.pkt rssi i.readSt)
    if i.readSt = errNone then
      update (countRead i.pkt rssi)
      return (some (i.pkt, rssi), l)
    else
      armReceive
      return (none, { l with inBurst := false })

/-- The branch without a pending packet. A header error alone re-arms nothing. -/
def rxIdle (i : RxStep) (l : RxLocals) : Work (Option (Packet × Int16) × RxLocals) := do
  if irqHas i.irq (irqCrcError ||| irqLenError ||| irqTimeout) then
    update (if irqHas i.irq irqCrcError then countCrcError
      else if irqHas i.irq irqLenError then countLengthError else id)
    armReceive
    return (none, { l with inBurst := false })
  else
    return (none, l)

def deliver (ps : List (Packet × Int16)) : Work Unit :=
  issueAll (ps.map fun p ↦ .onRxPacket p.1 p.2)

/-- The end of a turn: wait on inside a burst, else flush and leave. -/
def rxTail (i : RxStep) (l : RxLocals) : Work RxNext := do
  if l.inBurst && before i.deadlineNow l.burstDeadlineMs then
    return .again l
  else
    if l.inBurst then
      radioCall .clearRxBuffer
      armReceive
      update (setBurstMode 0)
    deliver l.queue
    return .leave

/-- What is done with a packet read. A packet without a burst header empties
the queue of parked packets. -/
def rxPacket (i : RxStep) (p : Packet × Int16) (l : RxLocals) : Work RxNext := do
  match decodeHeader p.1.bytes with
  | none =>
    radioCall .clearRxBuffer
    armReceive
    update (setBurstMode 0)
    return .leave
  | some hdr =>
    if hdr.packetIdx.toNat + 1 < hdr.totalPackets.toNat then
      update (setBurstMode 1)
      return .again { l with
        inBurst := true, burstDeadlineMs := i.burstNow + 10, queue := l.queue ++ [p] }
    else
      update (setBurstMode 0)
      update fun w ↦ { w with st := { w.st with burstsRx := w.st.burstsRx + 1 } }
      deliver (l.queue ++ [p])
      radioCall (.getRxFifoLevel i.afterLevel)
      if i.afterLevel ≥ kPacketPayload then
        return .again { l with
          inBurst := true, burstDeadlineMs := i.afterNow + 5, queue := [] }
      else if i.afterLevel > 0 then
        return .again { l with
          inBurst := true, burstDeadlineMs := i.afterNow + 4, queue := [] }
      else
        radioCall .clearRxBuffer
        rxTail i { l with inBurst := false, queue := [] }

/-- One turn of the loop. -/
def rxIter (i : RxStep) (l : RxLocals) : Work RxNext := do
  let (hasRx, l) ← rxSense i l
  let (got, l) ← if hasRx then rxRead i l else rxIdle i l
  match got with
  | some p => rxPacket i p { l with checkFifoAfterRx := true }
  | none => rxTail i l

/-- The loop on the answers it gets.  Behind the last of them the radio is
silent and the clock reaches the deadline, which ends it. -/
def rxLoop : List RxStep → RxLocals → Work Unit
  | [], l => discard (rxIter (.silent l.burstDeadlineMs) l)
  | i :: is, l => do
    match ← rxIter i l with
    | .again l => rxLoop is l
    | .leave => return ()

/-! ## The poll -/

structure PollInput where
  nowMs : UInt32
  thermal : ThermalInput := {}
  scanFreqSt : Int16 := 0
  rx : List RxStep := []
  burst : BurstInput

def pollOnce (io : PollInput) : Work Unit := do
  thermalTick io.nowMs io.thermal
  let w ← read
  if w.thermalLevel ≥ 2 then
    return ()
  if w.scanActive then
    scanTick io.nowMs io.scanFreqSt
  let w ← read
  if !w.radioOk then
    return ()
  if w.cfg.role == 1 then
    if !w.scanActive then
      serviceTxQueue io.burst
  else
    rxLoop io.rx {}
    let w ← read
    if !w.scanActive then
      serviceTxQueue io.burst

end RadioService
