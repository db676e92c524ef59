import RadioService.Connection
import RadioService.Emissions
import RadioService.TxLedger

/-!
# The service

The handlers of the serial server call into the worker, the worker calls back,
and both write to the host.  The main loop takes turns between them: the server
reads on until there is nothing left to read, then the worker polls.
-/

namespace RadioService.Serial

open Bytes Machine Stats

/-! ## State and events -/

/-- The server, the worker, the number of `enqueueTx` calls so far, and whether
it is the worker's turn. -/
structure Service where
  server : SerialServer
  worker : RadioWorker
  calls : ℕ := 0
  atWorker : Bool := false

inductive ServiceEvent where
  | effect (e : Effect)
  /-- What `enqueueTx` returned. -/
  | answer (frame : TxFrame) (t : Terminal)
  /-- A call of `startScan`. -/
  | sweep (p : ScanParams)
  /-- A buffer passed to `writeAll`. -/
  | write (buf : List UInt8)
deriving DecidableEq

/-- What the handlers find outside: the clock, and the driver's answers. -/
structure HandlerInput where
  now : UInt32 := 0
  scanFreqSt : Int16 := 0
  config : ConfigInput := {}
deriving DecidableEq

def writes (bufs : List (List UInt8)) : List ServiceEvent := bufs.map .write

/-- An effect of the worker, and the frames it makes the server write. -/
def called (e : Effect) : List ServiceEvent :=
  .effect e :: (onWorkerEffect e).flatMap fun m ↦ writes m.pieces

/-! ## The body of a CONFIG -/

structure ParsedConfig where
  frequencyHz : UInt32
  bandwidthHz : UInt32
  codingRate : UInt8
  txPowerDbm : Int8
  syncWord : UInt32
  role : UInt8

def parseConfig (body : List UInt8) : ParsedConfig :=
  let b : Buffer := fun i ↦ body.getD i 0
  { frequencyHz := b.word32 0
    bandwidthHz := b.word32 4
    codingRate := b 8
    txPowerDbm := (b 9).toInt8
    syncWord := b.word32 10
    role := b 14 }

/-- The frequency of a CONFIG that asks for a scan. -/
def scanMagic : UInt32 := 0xFFFFFFFF

/-- The scan that such a CONFIG asks for: every field means something else. -/
def ParsedConfig.scanParams (c : ParsedConfig) : ScanParams :=
  let count := if c.codingRate = 0 then 27 else c.codingRate
  let dwell := c.txPowerDbm.toUInt8.toUInt32 * 100
  { startHz := c.syncWord
    stepHz := c.bandwidthHz
    count := if count > 64 then 64 else count
    dwellMs := if dwell < 50 then 50 else dwell }

def ParsedConfig.config (c : ParsedConfig) : Config := ⟨c.frequencyHz, c.txPowerDbm, c.role⟩

/-! ## Handlers -/

namespace Service

variable (s : Service) (io : HandlerInput)

def perform {α : Type} (m : Work α) : Service × List ServiceEvent :=
  ({ s with worker := (m.run s.worker).state }, (m.run s.worker).log.flatMap fun p ↦ called p.2)

def startSweep (p : ScanParams) : Service × List ServiceEvent :=
  let (s, out) := s.perform (startScan p io.now io.scanFreqSt)
  (s, .sweep p :: out)

def handleConfig (body : List UInt8) : Service × List ServiceEvent :=
  let c := parseConfig body
  if c.frequencyHz = scanMagic then
    let (s, out) := s.startSweep io c.scanParams
    (s, out ++ writes (writeReady 511))
  else
    let reply := match ((applyConfig c.config io.config).run s.worker).val with
      | .ok _ => writeReady 511
      | .error err => writeError 0x03 (literal err)
    let (s, out) := s.perform (applyConfig c.config io.config)
    (s, out ++ writes reply)

def handleScanQ (count : UInt8) (dwellMs : UInt32) (freqs : List UInt32) :
    Service × List ServiceEvent :=
  if count = 0 ∨ count > 16 then
    (s, [])
  else
    s.startSweep io
      { startHz := freqs.getD 0 0
        stepHz := 0
        count := count
        dwellMs := if dwellMs < 50 then 50 else dwellMs }

/-- A bare `G`; neither the queue nor the scan is touched. -/
def handleReset : Service × List ServiceEvent := (s, writes [[tagG]])

def handleTx (payload : List UInt8) : Service × List ServiceEvent :=
  let frame : TxFrame := ⟨s.calls, payload⟩
  let t := ((enqueueTx frame).run s.worker).val
  let (s, out) := { s with calls := s.calls + 1 }.perform (enqueueTx frame)
  (s, out ++ .answer frame t :: writes
    (if t = .kBusy then writeError 0x04 (literal "tx queue full")
    else writeDiag 47 (UInt32.ofNat payload.length)))

def emitStats : List ServiceEvent :=
  writes (writeStats (statsFrame s.worker.st io.now s.server.parserFramesKilled))

def handle : Command → Service × List ServiceEvent
  | .forceStats => (s, s.emitStats io)
  | .handleReset => s.handleReset
  | .storeWindow _ _ => (s, [])
  | .writeReady maxPayload => (s, writes (writeReady maxPayload))
  | .handleConfig body _ => s.handleConfig io body
  | .handleTx payload => s.handleTx payload
  | .handleScanQ count dwell freqs => s.handleScanQ io count dwell freqs
  | .writeError code msg => (s, writes (writeError code (literal msg)))

end Service

/-- What the server's own step brings about. -/
def respond (io : HandlerInput) : Step Service ServerEvent ServiceEvent
  | s, .command c => s.handle io c
  | s, .greeting => (s, writes (writeReady 511) ++ s.emitStats io)
  | s, .periodicStats => (s, s.emitStats io)

/-! ## The main loop -/

/-- The server's poll returns behind these. -/
def ServerOp.returns : ServerOp → Bool
  | .empty _ | .close => true
  | _ => false

inductive ServiceStep where
  | serve (op : ServerOp) (io : HandlerInput)
  | poll (io : RadioService.PollInput)

def serviceStep : Step Service ServiceStep ServiceEvent
  | s, .serve op io =>
    if s.atWorker then
      (s, [])
    else
      let (server, es) := serverStep s.server op
      run (respond io) { s with server := server, atWorker := op.returns } es
  | s, .poll io =>
    if s.atWorker then
      { s with atWorker := false }.perform (RadioService.pollOnce io)
    else
      (s, [])

/-- The service behind the start of both halves.  A client of the TCP transport
is still to come. -/
def Service.boot (tcp : Bool) (now : UInt32) (io : InitInput) : Service where
  server := { isTcp := tcp, connected := !tcp, lastStatsMs := if tcp then 0 else now }
  worker := (TxSystem.start io).worker

/-! ## Relations kept by all that the service does -/

/-- `R` holds of every call that the service makes into the worker and of what it
writes, and of one thing after another. -/
structure Composes (R : Service → Service × List ServiceEvent → Prop) : Prop where
  stay : ∀ {s s' : Service} (bufs : List (List UInt8)), s'.worker = s.worker →
    s'.calls = s.calls → R s (s', writes bufs)
  trans : ∀ {s s' s'' : Service} {out out' : List ServiceEvent}, R s (s', out) →
    R s' (s'', out') → R s (s'', out ++ out')
  sweep : ∀ (s : Service) (io : HandlerInput) (p : ScanParams), R s (s.startSweep io p)
  config : ∀ (s : Service) (cfg : Config) (io : ConfigInput), R s (s.perform (applyConfig cfg io))
  tx : ∀ (s : Service) (payload : List UInt8), R s (s.handleTx payload)
  poll : ∀ (s : Service) (io : RadioService.PollInput), R s (s.perform (RadioService.pollOnce io))

namespace Composes

variable {R : Service → Service × List ServiceEvent → Prop} (h : Composes R)

include h

theorem handle (s : Service) (io : HandlerInput) (c : Command) : R s (s.handle io c) := by
  cases c with
  | handleConfig body len =>
      unfold Service.handle Service.handleConfig
      dsimp only
      split
      · exact h.trans (h.sweep s io _) (h.stay _ rfl rfl)
      · exact h.trans (h.config s _ _) (h.stay _ rfl rfl)
  | handleTx payload => exact h.tx s payload
  | handleScanQ count dwell freqs =>
      unfold Service.handle Service.handleScanQ
      dsimp only
      split
      · exact h.stay [] rfl rfl
      · exact h.sweep s io _
  | storeWindow => exact h.stay [] rfl rfl
  | _ => exact h.stay _ rfl rfl

theorem respond (s : Service) (io : HandlerInput) (es : List ServerEvent) :
    R s (run (respond io) s es) := by
  induction es generalizing s with
  | nil => exact h.stay [] rfl rfl
  | cons e es ih =>
      have hstats : R s (s, s.emitStats io) := h.stay _ rfl rfl
      have hhead : R s (Serial.respond io s e) := by
        cases e with
        | command c => exact h.handle s io c
        | greeting =>
            have hready : R s (s, writes (writeReady 511)) := h.stay _ rfl rfl
            exact h.trans hready hstats
        | periodicStats => exact hstats
      exact h.trans hhead (ih _)

theorem step (s : Service) (i : ServiceStep) : R s (serviceStep s i) := by
  cases i with
  | serve op io =>
      rw [serviceStep]
      split
      · exact h.stay [] rfl rfl
      · have hturn : R s ({ s with
            server := (serverStep s.server op).1, atWorker := op.returns }, []) :=
          h.stay [] rfl rfl
        exact h.trans hturn (h.respond _ io _)
  | poll io =>
      rw [serviceStep]
      split
      · have hturn : R s ({ s with atWorker := false }, []) := h.stay [] rfl rfl
        exact h.trans hturn (h.poll _ io)
      · exact h.stay [] rfl rfl

theorem run (s : Service) (is : List ServiceStep) : R s (run serviceStep s is) := by
  induction is generalizing s with
  | nil => exact h.stay [] rfl rfl
  | cons i is ih => exact h.trans (h.step s i) (ih _)

end Composes

/-! ## The worker's part -/

def ServiceEvent.effect? : ServiceEvent → Option Effect
  | .effect e => some e
  | _ => none

def effects (out : List ServiceEvent) : List Effect := out.filterMap ServiceEvent.effect?

@[simp] theorem effects_append (out out' : List ServiceEvent) :
    effects (out ++ out') = effects out ++ effects out' := List.filterMap_append

@[simp] theorem effects_writes (bufs : List (List UInt8)) : effects (writes bufs) = [] := by
  simp [effects, writes, ServiceEvent.effect?]

theorem effects_called (e : Effect) : effects (called e) = [e] := by
  have hframes : effects ((onWorkerEffect e).flatMap fun m ↦ writes m.pieces) = [] := by
    rw [effects, List.filterMap_flatMap]
    exact List.flatMap_eq_nil_iff.mpr fun m _ ↦ effects_writes m.pieces
  exact congrArg (e :: ·) hframes

theorem effects_perform {α : Type} (s : Service) (m : Work α) :
    effects (s.perform m).2 = (m.run s.worker).events := by
  change effects ((m.run s.worker).log.flatMap fun p ↦ called p.2) = _
  rw [effects, List.filterMap_flatMap, Outcome.events, List.map_eq_flatMap]
  exact congrArg (List.flatMap · (m.run s.worker).log) (funext fun p ↦ effects_called p.2)

/-- Calls into the worker lead from one service to another, with the same effects. -/
def CallsWorker (s : Service) (next : Service × List ServiceEvent) : Prop :=
  ∃ calls, (Machine.run workerStep s.worker calls).1 = next.1.worker ∧
    (Machine.run workerStep s.worker calls).2.map Prod.snd = effects next.2

theorem callsWorker_perform (s : Service) (c : Call) : CallsWorker s (s.perform c.exec) := by
  refine ⟨[c], rfl, ?_⟩
  rw [effects_perform, run_cons, run_nil, List.append_nil]
  rfl

theorem callsWorker : Composes CallsWorker where
  stay := by
    intro s s' bufs hworker _
    exact ⟨[], hworker.symm, (effects_writes bufs).symm⟩
  trans := by
    rintro s s' s'' out out' ⟨calls, hworker, hevents⟩ ⟨calls', hworker', hevents'⟩
    refine ⟨calls ++ calls', ?_, ?_⟩
    · rw [run_append, hworker]
      exact hworker'
    · rw [run_append, hworker, List.map_append, hevents, hevents', effects_append]
  sweep s io p := by
    obtain ⟨calls, hworker, hevents⟩ := callsWorker_perform s (.startScan p io.now io.scanFreqSt)
    exact ⟨calls, hworker, hevents⟩
  config s cfg io := by
    obtain ⟨calls, hworker, hevents⟩ := callsWorker_perform s (.applyConfig cfg io)
    refine ⟨calls, hworker, hevents.trans ?_⟩
    rw [effects_perform, effects_perform]
    exact congrArg Outcome.events (Traced.run_discard _ _)
  tx s payload := by
    obtain ⟨calls, hworker, hevents⟩ :=
      callsWorker_perform { s with calls := s.calls + 1 } (.enqueueTx ⟨s.calls, payload⟩)
    refine ⟨calls, hworker, hevents.trans ?_⟩
    have hanswer : ∀ frame t bufs, effects (.answer frame t :: writes bufs) = [] :=
      fun _ _ bufs ↦ effects_writes bufs
    simp only [Service.handleTx, effects_append, hanswer, List.append_nil]
    rw [effects_perform, effects_perform]
    exact congrArg Outcome.events (Traced.run_discard _ _)
  poll s io := callsWorker_perform s (.pollOnce io)

end RadioService.Serial
