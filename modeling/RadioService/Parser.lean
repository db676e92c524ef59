import RadioService.Machine.Bytes
import RadioService.Machine.Runs
import RadioService.Burst

/-!
# The byte parser of the serial server

`consume` is the state switch of the parser: one byte, no clock.  `receive`
puts the idle resync against the clock of the previous byte in front of it, and
`feed` the periodic stats behind it.  `pollOnce` drains the transport.
-/

namespace RadioService.Serial

open Burst Bytes Machine

inductive State where
  | tag
  | txMagic
  | setWindow
  | lenLo
  | lenHi
  | config
  | payload
  | scanCount
  | scanBody
deriving DecidableEq

/-- The parser's fields, its two static buffers among them. -/
structure Parser where
  state : State := .tag
  tag : UInt8 := 0
  frameLen : UInt16 := 0
  have_ : ℕ := 0
  skipRemain : UInt16 := 0
  configBody : Buffer := fun _ ↦ 0
  windowBody : Buffer := fun _ ↦ 0
  scanCount : UInt8 := 0
  scanHave : UInt8 := 0
  txBuf : Buffer := fun _ ↦ 0
  qbuf : Buffer := fun _ ↦ 0
  slotOffsetMs : UInt32 := 100
  slotPeriodMs : UInt32 := 1000

/-- What the parser calls on the way. -/
inductive Command where
  | forceStats
  | handleReset
  | storeWindow (offset period : UInt32)
  | writeReady (maxPayload : UInt16)
  | handleConfig (body : List UInt8) (len : UInt8)
  | handleTx (payload : List UInt8)
  | handleScanQ (count : UInt8) (dwell : UInt32) (freqs : List UInt32)
  | writeError (code : UInt8) (msg : String)
deriving DecidableEq

def tagT : UInt8 := 0x54
def tagW : UInt8 := 0x57
def tagC : UInt8 := 0x43
def tagS : UInt8 := 0x53
def tagQ : UInt8 := 0x51
def tagX : UInt8 := 0x58

/-! ## The state switch -/

def onTag (p : Parser) (b : UInt8) : Parser × List Command :=
  let p := { p with tag := b }
  if b = tagT then ({ p with state := .txMagic, have_ := 0 }, [])
  else if b = tagW then ({ p with state := .setWindow, have_ := 0 }, [])
  else if b = tagC then ({ p with state := .lenLo, have_ := 0 }, [])
  else if b = tagS then (p, [.forceStats])
  else if b = tagQ then ({ p with state := .scanCount, have_ := 0 }, [])
  else if b = tagX then (p, [.handleReset])
  else (p, [])

def onTxMagic (p : Parser) (b : UInt8) : Parser × List Command :=
  ({ p with state := if b ≠ tagX then .tag else .lenLo }, [])

def onSetWindow (p : Parser) (b : UInt8) : Parser × List Command :=
  let p := { p with windowBody := p.windowBody.store p.have_ b, have_ := p.have_ + 1 }
  if p.have_ = 8 then
    let offset := p.windowBody.word32 0
    let period := p.windowBody.word32 4
    ({ p with state := .tag, slotOffsetMs := offset, slotPeriodMs := period },
      [.storeWindow offset period, .writeReady 511])
  else
    (p, [])

def onLenLo (p : Parser) (b : UInt8) : Parser × List Command :=
  ({ p with frameLen := b.toUInt16, state := .lenHi }, [])

def onLenHi (p : Parser) (b : UInt8) : Parser × List Command :=
  let p := { p with frameLen := p.frameLen ||| (b.toUInt16 <<< 8) }
  if p.tag = tagC then
    if p.frameLen ≠ 15 ∧ p.frameLen ≠ 17 then
      ({ p with state := .tag }, [.writeError 0x03 "bad len"])
    else
      ({ p with state := .config, have_ := 0 }, [])
  else if p.tag = tagT then
    if p.frameLen = 0 ∨ p.frameLen.toUInt32 > kMaxTotalPayload then
      ({ p with skipRemain := p.frameLen, state := .tag }, [.writeError 0x02 "bad tx len"])
    else
      ({ p with state := .payload, have_ := 0 }, [])
  else
    ({ p with state := .tag }, [])

def onConfig (p : Parser) (b : UInt8) : Parser × List Command :=
  let p := { p with configBody := p.configBody.store p.have_ b, have_ := p.have_ + 1 }
  if p.have_ = p.frameLen.toNat then
    ({ p with state := .tag },
      [.handleConfig (p.configBody.bytes p.frameLen.toNat) p.frameLen.toUInt8])
  else
    (p, [])

def onPayload (p : Parser) (b : UInt8) : Parser × List Command :=
  let p := { p with txBuf := p.txBuf.store p.have_ b, have_ := p.have_ + 1 }
  if p.have_ = p.frameLen.toNat then
    ({ p with state := .tag }, [.handleTx (p.txBuf.bytes p.frameLen.toNat)])
  else
    (p, [])

def onScanCount (p : Parser) (b : UInt8) : Parser × List Command :=
  ({ p with
    scanCount := b, scanHave := 0, state := if b ≥ 1 ∧ b ≤ 16 then .scanBody else .tag }, [])

def onScanBody (p : Parser) (b : UInt8) : Parser × List Command :=
  let p := { p with qbuf := p.qbuf.store p.scanHave.toNat b, scanHave := p.scanHave + 1 }
  if p.scanHave.toNat = 4 + p.scanCount.toNat * 4 then
    ({ p with state := .tag },
      [.handleScanQ p.scanCount (p.qbuf.word32 0)
        ((List.range p.scanCount.toNat).map fun i ↦ p.qbuf.word32 (4 + i * 4))])
  else
    (p, [])

def switch (p : Parser) (b : UInt8) : Parser × List Command :=
  match p.state with
  | .tag => onTag p b
  | .txMagic => onTxMagic p b
  | .setWindow => onSetWindow p b
  | .lenLo => onLenLo p b
  | .lenHi => onLenHi p b
  | .config => onConfig p b
  | .payload => onPayload p b
  | .scanCount => onScanCount p b
  | .scanBody => onScanBody p b

/-- One byte, the drain of a refused frame first. -/
def consume (p : Parser) (b : UInt8) : Parser × List Command :=
  if p.skipRemain > 0 then
    ({ p with skipRemain := p.skipRemain - 1 }, [])
  else
    switch p b

/-! ## The clock -/

/-- The parser with the clock of the last byte and the count of kills. -/
structure ClockedParser where
  parser : Parser := {}
  lastArrivalMs : UInt32 := 0
  parserFramesKilled : UInt32 := 0

/-- A byte read, and the clock at the three places that look at it. -/
structure RxByte where
  byte : UInt8
  now : UInt32
  forceNow : UInt32 := now
  tickNow : UInt32 := now
deriving DecidableEq

/-- Inside a frame, or draining one. -/
def busy (p : Parser) : Bool := p.state != .tag || p.skipRemain > 0

/-- The states whose kill is counted. -/
def killCounted (st : State) : Bool :=
  st == .payload || st == .config || st == .setWindow || st == .lenHi

/-- Whether a byte read at `now` finds a frame that has been idle too long. -/
def resyncs (c : ClockedParser) (now : UInt32) : Bool :=
  busy c.parser && now - c.lastArrivalMs > 100

def idleResync (c : ClockedParser) (now : UInt32) : ClockedParser :=
  if resyncs c now then
    { c with
      parserFramesKilled :=
        if killCounted c.parser.state then c.parserFramesKilled + 1 else c.parserFramesKilled
      -- the bytes of the frame that are still to come are not skipped
      parser := { c.parser with skipRemain := 0, state := .tag, have_ := 0 } }
  else
    c

def receive (c : ClockedParser) (r : RxByte) : ClockedParser × List Command :=
  let c := idleResync c r.now
  let (parser, commands) := consume c.parser r.byte
  ({ c with parser := parser, lastArrivalMs := r.now }, commands)

/-! ## The server -/

structure SerialServer extends ClockedParser where
  isTcp : Bool := false
  /-- `fd_ >= 0`. -/
  connected : Bool := true
  lastStatsMs : UInt32 := 0

inductive ServerEvent where
  | command (c : Command)
  | greeting
  | periodicStats
deriving DecidableEq

/-- The calls the parser makes, without the frames the clock brings about. -/
def ServerEvent.command? : ServerEvent → Option Command
  | .command c => some c
  | _ => none

def maybeEmitStats (s : SerialServer) (now : UInt32) : SerialServer × List ServerEvent :=
  if now - s.lastStatsMs ≥ 10000 then
    ({ s with lastStatsMs := now }, [.periodicStats])
  else
    (s, [])

/-- The body of the read loop.  A drained byte skips the stats. -/
def feed (s : SerialServer) (r : RxByte) : SerialServer × List ServerEvent :=
  let draining := (idleResync s.toClockedParser r.now).parser.skipRemain > 0
  let (clocked, commands) := receive s.toClockedParser r
  let s := { s with
    toClockedParser := clocked
    lastStatsMs := if .forceStats ∈ commands then r.forceNow else s.lastStatsMs }
  let (s, stats) := if draining then (s, []) else maybeEmitStats s r.tickNow
  (s, commands.map .command ++ stats)

/-- How a drain of the transport ends: nothing to read, or the peer gone. -/
inductive ReadEnd where
  | empty (now : UInt32)
  | closed
deriving DecidableEq

structure PollInput where
  /-- A client accepted, and the clock for its first stats frame. -/
  accept : Option UInt32 := none
  reads : List RxByte
  last : ReadEnd
deriving DecidableEq

def drain (s : SerialServer) (io : PollInput) : SerialServer × List ServerEvent :=
  if !s.connected then
    (s, [])
  else
    let (s, out) := run feed s io.reads
    match io.last with
    | .empty now =>
      let (s, stats) := maybeEmitStats s now
      (s, out ++ stats)
    | .closed => ({ s with connected := false }, out)

def pollOnce (s : SerialServer) (io : PollInput) : SerialServer × List ServerEvent :=
  if s.isTcp && !s.connected then
    match io.accept with
    | none => (s, [])
    | some now =>
      let s := { s with
        connected := true
        parser := { s.parser with state := .tag, skipRemain := 0, have_ := 0 }
        lastStatsMs := now }
      let (s, out) := drain s io
      (s, .greeting :: out)
  else
    drain s io

end RadioService.Serial
