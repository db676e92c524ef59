import RadioService.Parser

/-!
# The simulator's parser

`SimParser` is what `SimDevice.parse` keeps between two turns of its loop: a
second parser of the host's bytes, in another language.  A turn waits at most
50 ms for a byte, so that it looks at its clock also when none has come.
-/

namespace RadioService.Serial

open Bytes Machine

/-- The local variables of `parse`.  Its states bear the names of the service's. -/
structure SimParser where
  state : State := .tag
  tag : UInt8 := 0
  frameLen : ℕ := 0
  buf : List UInt8 := []
  cfgBody : List UInt8 := []
  winBody : List UInt8 := []
  qbuf : List UInt8 := []
  scanCount : UInt8 := 0
  scanHave : ℕ := 0
  lastArrival : ℕ := 0
deriving DecidableEq

/-- What the simulator calls on the way. `reset` is a bare `G`, a pause of 200 ms
and `ready`; of the frequencies, the sweep starts at the first and takes no other. -/
inductive SimCall where
  | statsFrame
  | reset
  | ready
  | error (code : UInt8) (msg : String)
  | handleConfig (body : List UInt8)
  | handleTx (payload : List UInt8)
  | runFakeSweep (freqs : List UInt32) (count : UInt8) (dwell : UInt32)
deriving DecidableEq

/-- What `select` and `read` find, and the clock behind the read. -/
inductive SimRead where
  | nothing
  | byte (b : UInt8) (arrival : ℕ)
  | closed (arrival : ℕ)
deriving DecidableEq

/-- One turn of the loop, `now` being the clock in front of the read. -/
structure SimPoll where
  now : ℕ
  read : SimRead
deriving DecidableEq

def unpackU32 (l : List UInt8) : UInt32 :=
  u32 (l.getD 0 0) (l.getD 1 0) (l.getD 2 0) (l.getD 3 0)

def simMaxPayload : ℕ := 24576

namespace SimParser

/-! ## The state switch -/

def onTag (d : SimParser) (b : UInt8) : SimParser × List SimCall :=
  let d := { d with tag := b }
  if b = tagT then ({ d with state := .txMagic }, [])
  else if b = tagC then ({ d with state := .lenLo }, [])
  else if b = tagW then ({ d with state := .setWindow }, [])
  else if b = tagS then (d, [.statsFrame])
  else if b = tagQ then ({ d with state := .scanCount }, [])
  else if b = tagX then (d, [.reset])
  else (d, [])

def onTxMagic (d : SimParser) (b : UInt8) : SimParser × List SimCall :=
  ({ d with state := if b = tagX then .lenLo else .tag }, [])

def onSetWindow (d : SimParser) (b : UInt8) : SimParser × List SimCall :=
  let d := { d with winBody := d.winBody ++ [b] }
  if d.winBody.length = 8 then
    ({ d with winBody := [], state := .tag }, [.ready])
  else
    (d, [])

def onLenLo (d : SimParser) (b : UInt8) : SimParser × List SimCall :=
  ({ d with frameLen := b.toNat, state := .lenHi }, [])

def onLenHi (d : SimParser) (b : UInt8) : SimParser × List SimCall :=
  let d := { d with frameLen := d.frameLen ||| (b.toNat <<< 8) }
  if d.tag = tagC then
    if d.frameLen ≠ 15 ∧ d.frameLen ≠ 17 then
      ({ d with state := .tag }, [.error 0x03 "bad len"])
    else
      ({ d with cfgBody := [], state := .config }, [])
  else if d.tag = tagT then
    -- the bytes of a refused frame are parsed as commands
    if d.frameLen = 0 ∨ d.frameLen > simMaxPayload then
      ({ d with state := .tag }, [.error 0x02 "bad tx len"])
    else
      ({ d with buf := [], state := .payload }, [])
  else
    ({ d with state := .tag }, [])

def onConfig (d : SimParser) (b : UInt8) : SimParser × List SimCall :=
  let d := { d with cfgBody := d.cfgBody ++ [b] }
  if d.cfgBody.length = d.frameLen then
    ({ d with state := .tag }, [.handleConfig d.cfgBody])
  else
    (d, [])

def onPayload (d : SimParser) (b : UInt8) : SimParser × List SimCall :=
  let d := { d with buf := d.buf ++ [b] }
  if d.buf.length = d.frameLen then
    ({ d with buf := [], state := .tag }, [.handleTx d.buf])
  else
    (d, [])

def onScanCount (d : SimParser) (b : UInt8) : SimParser × List SimCall :=
  ({ d with
    scanCount := b, scanHave := 0, qbuf := []
    state := if 1 ≤ b ∧ b ≤ 16 then .scanBody else .tag }, [])

def onScanBody (d : SimParser) (b : UInt8) : SimParser × List SimCall :=
  let d := { d with qbuf := d.qbuf ++ [b], scanHave := d.scanHave + 1 }
  if d.scanHave = 4 + d.scanCount.toNat * 4 then
    ({ d with state := .tag },
      [.runFakeSweep
        ((List.range d.scanCount.toNat).map fun i ↦ unpackU32 (d.qbuf.drop (4 + i * 4)))
        d.scanCount (unpackU32 d.qbuf)])
  else
    (d, [])

def switch (d : SimParser) (b : UInt8) : SimParser × List SimCall :=
  match d.state with
  | .tag => onTag d b
  | .txMagic => onTxMagic d b
  | .setWindow => onSetWindow d b
  | .lenLo => onLenLo d b
  | .lenHi => onLenHi d b
  | .config => onConfig d b
  | .payload => onPayload d b
  | .scanCount => onScanCount d b
  | .scanBody => onScanBody d b

/-! ## The clock -/

/-- A killed `W` frame leaves its bytes in `winBody`. -/
def idleResync (d : SimParser) (now : ℕ) : SimParser :=
  if d.state ≠ .tag ∧ now - d.lastArrival > 100 then
    { d with state := .tag, buf := [] }
  else
    d

def parse : Step SimParser SimPoll SimCall := fun d p ↦
  let d := d.idleResync p.now
  match p.read with
  | .nothing => (d, [])
  | .closed arrival => ({ d with lastArrival := arrival, state := .tag }, [])
  | .byte b arrival => switch { d with lastArrival := arrival } b

end SimParser

end RadioService.Serial
