import Mathlib.Algebra.Order.Ring.Rat
import RadioService.Worker

/-!
# The thermal guard of the radio worker

Every four seconds the worker takes a thermal level, from the state file when
that is fresh and from the sensor ladder otherwise, and acts on a change of
level: 2 cuts the radio's power and drains the transmit queue, 1 throttles the
output power, 0 restores normal operation.
-/

namespace RadioService

open Traced

/-! ## Reading the level -/

/-- What `fscanf` got out of the state file. -/
structure ThermalFile where
  fields : ℕ
  lvl : Int
  tc : ℚ
  tsSec : Int
deriving DecidableEq

/-- The clock, the state file if it opens, and the temperature a sensor
reading in range converts to. -/
structure ThermalReading where
  nowSec : Int := 0
  file : Option ThermalFile := none
  sensor : Option ℚ := none
deriving DecidableEq

def validTemp (t : ℚ) : Bool := -20 < t && t < 150

def ThermalFile.fresh (nowSec : Int) (f : ThermalFile) : Bool :=
  f.fields ≥ 2 && validTemp f.tc && (f.fields < 3 || nowSec - f.tsSec ≤ 10)

def nextFan (fanOn : Bool) (t : ℚ) : Bool :=
  if t ≥ 45 && !fanOn then true else if t < 38 && fanOn then false else fanOn

def nextDvfs (stage : Int) (t : ℚ) : Int :=
  if t ≥ 74 || (stage == 5 && t ≥ 71) then 5
  else if t ≥ 68 || (stage ≥ 4 && t ≥ 65) then 4
  else if t ≥ 62 || (stage ≥ 3 && t ≥ 59) then 3
  else if t ≥ 56 || (stage ≥ 2 && t ≥ 53) then 2
  else if t ≥ 50 || (stage ≥ 1 && t ≥ 47) then 1
  else 0

def sensorLevel (level : Int) (t : ℚ) : Int :=
  if t ≥ 82 then 2
  else if level == 2 then (if t < 55 then 0 else level)
  else if t ≥ 68 then 1
  else if level == 1 && t < 60 then 0
  else level

/-- The fallback ladder: fan, processor stage and level from one temperature. -/
def sensorTick (t : ℚ) : Work Int := do
  let w ← read
  if nextFan w.fanOn t ≠ w.fanOn then
    issue (.powerSet 42 (nextFan w.fanOn t))
  if nextDvfs w.cpuDvfsStage t ≠ w.cpuDvfsStage then
    issue (.setCpuStage (nextDvfs w.cpuDvfsStage t))
  update fun w ↦ { w with
    fanOn := nextFan w.fanOn t, cpuDvfsStage := nextDvfs w.cpuDvfsStage t }
  return sensorLevel w.thermalLevel t

def initPm : Work Unit := do
  let w ← read
  if !w.pmInitialized then
    issue (.setCpuStage 0)
    update fun w ↦ { w with cpuDvfsStage := 0, pmInitialized := true }

/-- The level to go to, if any source gave one. -/
def readLevel (r : ThermalReading) : Work (Option Int) := do
  match r.file.filter (·.fresh r.nowSec) with
  | some f => return some f.lvl
  | none =>
    initPm
    match r.sensor.filter validTemp with
    | none => return none
    | some t => return some (← sensorTick t)

/-! ## Acting on a change of level -/

structure ThermalInput where
  reading : ThermalReading := {}
  /-- Status of `setOutputPower` in the throttle and recovery branches. -/
  powerSt : Int16 := 0
  init : InitInput := {}
  config : ConfigInput := {}
deriving DecidableEq

def setLevel (level : Int) : Work Unit :=
  update fun w ↦ { w with thermalLevel := level }

/-- Cutoff, under the radio lock. -/
def cutPower : Work Unit := do
  let w ← read
  if w.radioOk then
    standby
  issue (.powerSet 42 true)
  issue (.powerSet w.powerGpio false)
  update fun w ↦ { w with thermalPoweredDown := true }

/-- Cutoff, under the queue lock. -/
def drainTxQ : Work (List TxFrame) := do
  let w ← read
  update fun w ↦ { w with txQ := [], st := { w.st with pendingTxValid := 0 } }
  return w.txQ

def reportDropped (frames : List TxFrame) : Work Unit :=
  issueAll (frames.map fun f ↦ .onTxTerminal f .kDropped)

def throttle (io : ThermalInput) : Work Unit := do
  let w ← read
  if w.radioOk && !w.thermalPoweredDown then
    standby
    discard (setOutputPower kThrottledTxPowerDbm io.powerSt)
    armReceive

/-- Back from a cutoff: power, then the configuration of before. -/
def reviveRadio (io : ThermalInput) : Work Unit := do
  let w ← read
  let ok ← init w.powerGpio io.init
  if ok then
    update fun w ↦ { w with thermalPoweredDown := false }
    discard (applyConfig w.cfg io.config)

def recover (prev : Int) (io : ThermalInput) : Work Unit := do
  let w ← read
  if w.thermalPoweredDown then
    reviveRadio io
  else if prev == 1 && w.radioOk then
    standby
    discard (setOutputPower w.cfg.txPowerDbm io.powerSt)
    armReceive

/-- The three branches on a level that has just changed from `prev`. -/
def enterLevel (prev level : Int) (io : ThermalInput) : Work Unit := do
  setLevel level
  if level == 2 then
    cutPower
    let frames ← drainTxQ
    reportDropped frames
  else if level == 1 then
    throttle io
  else if level == 0 then
    recover prev io

def thermalDue (s : Settings) (now : UInt32) : Bool :=
  s.lastThermalCheckMs == 0 || now - s.lastThermalCheckMs ≥ 4000

/-- Behind the reading: nothing to do without a level, or without a change. -/
def takeLevel (next : Option Int) (io : ThermalInput) : Work Unit := do
  let w ← read
  match next with
  | none => return ()
  | some level =>
    if level ≠ w.thermalLevel then
      enterLevel w.thermalLevel level io

def thermalTick (now : UInt32) (io : ThermalInput) : Work Unit := do
  let w ← read
  if !thermalDue w.toSettings now then
    return ()
  update fun w ↦ { w with lastThermalCheckMs := now }
  takeLevel (← readLevel io.reading) io

end RadioService
