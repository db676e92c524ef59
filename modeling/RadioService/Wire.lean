import RadioService.FrameDecode
import RadioService.Service

/-!
# The service, frame by frame

`tell` is the service with its frames left whole: what it puts out says which
command is handled, what the worker does and which frame is written.  Spelled
out in buffers it is the service itself.  A host that decodes the bytes of a
run gets the frames back, one for one.
-/

namespace RadioService.Serial

open Machine Stats Streams

inductive Act where
  /-- A command of the host is handled. -/
  | command (c : Command)
  /-- A client is greeted. -/
  | greeting
  | effect (e : Effect)
  | answer (frame : TxFrame) (t : Terminal)
  | sweep (p : ScanParams)
  /-- A frame written by the server itself. -/
  | say (e : Emission)
deriving DecidableEq

namespace Act

/-- The answer to an `X` is not a whole frame. -/
def events : Act → List ServiceEvent
  | command .handleReset => writes [[tagG]]
  | command _ | greeting => []
  | effect e => called e
  | answer frame t => [.answer frame t]
  | sweep p => [.sweep p]
  | say e => writes e.pieces

def emissions : Act → List Emission
  | effect e => onWorkerEffect e
  | say e => [e]
  | _ => []

def effect? : Act → Option Effect
  | effect e => some e
  | _ => none

end Act

/-! ## Handlers -/

namespace Service

variable (s : Service) (io : HandlerInput)

def performActs {α : Type} (m : Work α) : List Act := (m.run s.worker).events.map .effect

def sweepActs (p : ScanParams) : List Act :=
  .sweep p :: s.performActs (startScan p io.now io.scanFreqSt)

def configActs (body : List UInt8) : List Act :=
  let c := parseConfig body
  if c.frequencyHz = scanMagic then
    s.sweepActs io c.scanParams ++ [.say (.ready 511)]
  else
    let reply := match ((applyConfig c.config io.config).run s.worker).val with
      | .ok _ => Emission.ready 511
      | .error err => Emission.error 0x03 (literal err)
    s.performActs (applyConfig c.config io.config) ++ [.say reply]

def scanQActs (count : UInt8) (dwellMs : UInt32) (freqs : List UInt32) : List Act :=
  if count = 0 ∨ count > 16 then
    []
  else
    s.sweepActs io
      { startHz := freqs.getD 0 0
        stepHz := 0
        count := count
        dwellMs := if dwellMs < 50 then 50 else dwellMs }

def txActs (payload : List UInt8) : List Act :=
  let frame : TxFrame := ⟨s.calls, payload⟩
  let t := ((enqueueTx frame).run s.worker).val
  s.performActs (enqueueTx frame) ++ [.answer frame t, .say
    (if t = .kBusy then .error 0x04 (literal "tx queue full")
    else .diag 47 (UInt32.ofNat payload.length))]

def statsAct : Act := .say (.stats (statsFrame s.worker.st io.now s.server.parserFramesKilled))

def commandActs : Command → List Act
  | .forceStats => [s.statsAct io]
  | .handleReset | .storeWindow _ _ => []
  | .writeReady maxPayload => [.say (.ready maxPayload)]
  | .handleConfig body _ => s.configActs io body
  | .handleTx payload => s.txActs payload
  | .handleScanQ count dwell freqs => s.scanQActs io count dwell freqs
  | .writeError code msg => [.say (.error code (literal msg))]

def serverActs : ServerEvent → List Act
  | .command c => .command c :: s.commandActs io c
  | .greeting => [.greeting, .say (.ready 511), s.statsAct io]
  | .periodicStats => [s.statsAct io]

end Service

theorem perform_discard {α : Type} (s : Service) (m : Work α) :
    (s.perform (Functor.discard m)).1 = (s.perform m).1 ∧
      s.performActs (Functor.discard m) = s.performActs m := by
  unfold Service.perform Service.performActs Outcome.events
  rw [Traced.run_discard]
  exact ⟨rfl, rfl⟩

/-! ## The service -/

def respondActs (io : HandlerInput) : Step Service ServerEvent Act
  | s, e => ((respond io s e).1, s.serverActs io e)

def tell : Step Service ServiceStep Act
  | s, .serve op io =>
    if s.atWorker then
      (s, [])
    else
      let (server, es) := serverStep s.server op
      run (respondActs io) { s with server := server, atWorker := op.returns } es
  | s, .poll io =>
    if s.atWorker then
      (({ s with atWorker := false }.perform (RadioService.pollOnce io)).1,
        s.performActs (RadioService.pollOnce io))
    else
      (s, [])

/-- `R` holds of all that is told, if it holds of the answers to the server and of
the polls, and of one thing after another. -/
structure Tells (R : Service → Service × List Act → Prop) : Prop where
  stay : ∀ {s s' : Service}, s'.worker = s.worker → s'.calls = s.calls → R s (s', [])
  trans : ∀ {s s' s'' : Service} {acts acts' : List Act}, R s (s', acts) → R s' (s'', acts') →
    R s (s'', acts ++ acts')
  server : ∀ (s : Service) (io : HandlerInput) (e : ServerEvent), R s (respondActs io s e)
  poll : ∀ (s : Service) (io : RadioService.PollInput),
    R s ((s.perform (RadioService.pollOnce io)).1, s.performActs (RadioService.pollOnce io))

namespace Tells

variable {R : Service → Service × List Act → Prop} (h : Tells R)

include h

theorem respond (s : Service) (io : HandlerInput) (es : List ServerEvent) :
    R s (Machine.run (respondActs io) s es) := by
  induction es generalizing s with
  | nil => exact h.stay rfl rfl
  | cons e es ih => exact h.trans (h.server s io e) (ih _)

theorem step (s : Service) (i : ServiceStep) : R s (tell s i) := by
  cases i with
  | serve op io =>
      rw [tell]
      split
      · exact h.stay rfl rfl
      · have hturn : R s ({ s with
            server := (serverStep s.server op).1, atWorker := op.returns }, []) :=
          h.stay rfl rfl
        exact h.trans hturn (h.respond _ io _)
  | poll io =>
      rw [tell]
      split
      · have hturn : R s ({ s with atWorker := false }, []) := h.stay rfl rfl
        exact h.trans hturn (h.poll _ io)
      · exact h.stay rfl rfl

theorem run (s : Service) (is : List ServiceStep) : R s (Machine.run tell s is) := by
  induction is generalizing s with
  | nil => exact h.stay rfl rfl
  | cons i is ih => exact h.trans (h.step s i) (ih _)

end Tells

/-! ## Spelled out -/

section

variable (s : Service) (io : HandlerInput)

theorem performActs_events {α : Type} (m : Work α) :
    (s.performActs m).flatMap Act.events = (s.perform m).2 := by
  rw [Service.performActs, Outcome.events, List.map_map, List.flatMap_map]
  rfl

theorem sweepActs_events (p : ScanParams) :
    (s.sweepActs io p).flatMap Act.events = (s.startSweep io p).2 :=
  congrArg (ServiceEvent.sweep p :: ·) (performActs_events s _)

theorem configActs_events (body : List UInt8) :
    (s.configActs io body).flatMap Act.events = (s.handleConfig io body).2 := by
  unfold Service.configActs Service.handleConfig
  dsimp only
  split
  · rw [List.flatMap_append, sweepActs_events, List.flatMap_singleton]
    rfl
  · rw [List.flatMap_append, performActs_events, List.flatMap_singleton]
    cases ((applyConfig (parseConfig body).config io.config).run s.worker).val <;> rfl

theorem scanQActs_events (count : UInt8) (dwellMs : UInt32) (freqs : List UInt32) :
    (s.scanQActs io count dwellMs freqs).flatMap Act.events =
      (s.handleScanQ io count dwellMs freqs).2 := by
  unfold Service.scanQActs Service.handleScanQ
  split
  · rfl
  · exact sweepActs_events s io _

theorem txActs_events (payload : List UInt8) :
    (s.txActs payload).flatMap Act.events = (s.handleTx payload).2 := by
  unfold Service.txActs Service.handleTx
  dsimp only
  rw [List.flatMap_append, performActs_events]
  refine congrArg _ ?_
  split <;> simp [Act.events, writes, Emission.pieces]

theorem serverActs_events (e : ServerEvent) :
    (s.serverActs io e).flatMap Act.events = (respond io s e).2 := by
  cases e with
  | command c =>
      cases c with
      | handleConfig body len => exact configActs_events s io body
      | handleTx payload => exact txActs_events s payload
      | handleScanQ count dwell freqs => exact scanQActs_events s io count dwell freqs
      | handleReset | storeWindow => rfl
      | forceStats | writeReady | writeError => exact List.append_nil _
  | greeting => exact congrArg (writes (writeReady 511) ++ ·) (List.append_nil _)
  | periodicStats => exact List.append_nil _

end

/-- The service is what `tell` tells, in buffers. -/
theorem serviceStep_eq_tell (s : Service) (i : ServiceStep) :
    serviceStep s i = ((tell s i).1, (tell s i).2.flatMap Act.events) := by
  cases i with
  | serve op io =>
      unfold serviceStep tell
      dsimp only
      split
      · rfl
      · refine run_spelled (fun s e ↦ ?_) _ _
        rw [respondActs, serverActs_events]
  | poll io =>
      unfold serviceStep tell
      dsimp only
      split
      · rw [performActs_events]
        rfl
      · rfl

theorem run_serviceStep_eq (s : Service) (is : List ServiceStep) :
    run serviceStep s is = ((run tell s is).1, (run tell s is).2.flatMap Act.events) :=
  run_spelled serviceStep_eq_tell s is

/-! ## On the wire -/

def ServiceEvent.written? : ServiceEvent → Option (List UInt8)
  | .write buf => some buf
  | _ => none

def buffers (out : List ServiceEvent) : List (List UInt8) := out.filterMap ServiceEvent.written?

/-- The bytes passed to `writeAll`, one buffer after the other. -/
def wire (out : List ServiceEvent) : List UInt8 :=
  (out.filterMap ServiceEvent.written?).flatten

@[simp] theorem wire_append (out out' : List ServiceEvent) :
    wire (out ++ out') = wire out ++ wire out' := by
  simp [wire]

@[simp] theorem wire_writes (bufs : List (List UInt8)) : wire (writes bufs) = bufs.flatten := by
  simp [wire, writes, List.filterMap_map, Function.comp_def, ServiceEvent.written?]

theorem wire_flatMap {α : Type} (f : α → List ServiceEvent) (xs : List α) :
    wire (xs.flatMap f) = xs.flatMap fun x ↦ wire (f x) := by
  induction xs with
  | nil => rfl
  | cons x xs ih => rw [List.flatMap_cons, wire_append, ih, List.flatMap_cons]

theorem wire_called (e : Effect) :
    wire (called e) = (onWorkerEffect e).flatMap Emission.bytes := by
  change wire ((onWorkerEffect e).flatMap fun m ↦ writes m.pieces) = _
  rw [wire_flatMap]
  exact List.flatMap_congr fun m _ ↦ wire_writes m.pieces

def emissions (acts : List Act) : List Emission := acts.flatMap Act.emissions

@[simp] theorem emissions_append (acts acts' : List Act) :
    emissions (acts ++ acts') = emissions acts ++ emissions acts' := List.flatMap_append

theorem wire_act {a : Act} (h : a ≠ .command .handleReset) :
    wire a.events = a.emissions.flatMap Emission.bytes := by
  cases a with
  | command c => cases c <;> first | exact absurd rfl h | rfl
  | effect e => exact wire_called e
  | say e =>
      change wire (writes e.pieces) = [e].flatMap Emission.bytes
      rw [wire_writes, List.flatMap_singleton]
      rfl
  | _ => rfl

theorem wire_acts {acts : List Act} (h : .command .handleReset ∉ acts) :
    wire (acts.flatMap Act.events) = (emissions acts).flatMap Emission.bytes := by
  rw [wire_flatMap, emissions, List.flatMap_assoc]
  exact List.flatMap_congr fun a ha ↦ wire_act (ne_of_mem_of_not_mem ha h)

/-! ## What is written fits -/

/-- The server itself writes no packets. -/
def Act.own : Act → Bool
  | say (.rx _ _) => false
  | _ => true

theorem Act.fits_emissions {a : Act} (h : a.own = true) : ∀ e ∈ a.emissions, e.fits := by
  cases a with
  | effect e =>
      cases e with
      | onRxPacket pkt rssi =>
          intro m hm
          cases List.mem_singleton.mp hm
          change pkt.bytes.length ≤ 24576
          rw [pkt.size]
          decide
      | onTxTerminal frame t =>
          intro m hm
          cases List.mem_singleton.mp hm
          cases t <;> trivial
      | onScanResult =>
          change ∀ m ∈ onWorkerScan _ _ _ _, m.fits
          simp [onWorkerScan, Emission.fits]
      | _ => exact fun m hm ↦ absurd hm List.not_mem_nil
  | say e =>
      intro m hm
      cases List.mem_singleton.mp hm
      cases e with
      | rx pkt rssi => cases h
      | _ => trivial
  | _ => exact fun m hm ↦ absurd hm List.not_mem_nil

section

variable (s : Service) (io : HandlerInput)

theorem performActs_own {α : Type} (m : Work α) : ∀ a ∈ s.performActs m, a.own = true := by
  intro a ha
  obtain ⟨e, -, rfl⟩ := List.mem_map.mp ha
  rfl

theorem sweepActs_own (p : ScanParams) : ∀ a ∈ s.sweepActs io p, a.own = true :=
  List.forall_mem_cons.mpr ⟨rfl, performActs_own s _⟩

theorem commandActs_own (c : Command) : ∀ a ∈ s.commandActs io c, a.own = true := by
  cases c with
  | handleConfig body len =>
      change ∀ a ∈ s.configActs io body, a.own = true
      unfold Service.configActs
      dsimp only
      split
      · refine List.forall_mem_append.mpr ⟨sweepActs_own s io _, ?_⟩
        exact List.forall_mem_singleton.mpr rfl
      · refine List.forall_mem_append.mpr ⟨performActs_own s _, ?_⟩
        refine List.forall_mem_singleton.mpr ?_
        split <;> rfl
  | handleTx payload =>
      refine List.forall_mem_append.mpr ⟨performActs_own s _, ?_⟩
      refine List.forall_mem_cons.mpr ⟨rfl, List.forall_mem_singleton.mpr ?_⟩
      change Act.own (.say (if _ then _ else _)) = true
      split <;> rfl
  | handleScanQ count dwell freqs =>
      change ∀ a ∈ s.scanQActs io count dwell freqs, a.own = true
      unfold Service.scanQActs
      split
      · exact fun a ha ↦ absurd ha List.not_mem_nil
      · exact sweepActs_own s io _
  | handleReset | storeWindow => exact fun a ha ↦ absurd ha List.not_mem_nil
  | forceStats | writeReady | writeError => exact List.forall_mem_singleton.mpr rfl

theorem serverActs_own (e : ServerEvent) : ∀ a ∈ s.serverActs io e, a.own = true := by
  cases e with
  | command c => exact List.forall_mem_cons.mpr ⟨rfl, commandActs_own s io c⟩
  | greeting =>
      refine List.forall_mem_cons.mpr ⟨rfl, List.forall_mem_cons.mpr ⟨rfl, ?_⟩⟩
      exact List.forall_mem_singleton.mpr rfl
  | periodicStats => exact List.forall_mem_singleton.mpr rfl

end

theorem run_tell_own (s : Service) (is : List ServiceStep) :
    ∀ a ∈ (run tell s is).2, a.own = true := by
  have hown : Tells fun _ next ↦ ∀ a ∈ next.2, a.own = true :=
    { stay := fun _ _ _ ha ↦ absurd ha List.not_mem_nil
      trans := fun h h' ↦ List.forall_mem_append.mpr ⟨h, h'⟩
      server := serverActs_own
      poll := fun s io ↦ performActs_own s _ }
  exact hown.run s is

theorem run_tell_fits (s : Service) (is : List ServiceStep) :
    ∀ e ∈ emissions (run tell s is).2, e.fits := by
  intro e he
  obtain ⟨a, ha, he⟩ := List.mem_flatMap.mp he
  exact Act.fits_emissions (run_tell_own s is a ha) e he

/-! ## What the host decodes -/

/-- Unless an `X` is handled, the host decodes the bytes of a run as the frames
that the service has told. -/
theorem wire_decodes (s : Service) (is : List ServiceStep)
    (hreset : .command .handleReset ∉ (run tell s is).2) :
    decodeAll decodeFrame (wire (run serviceStep s is).2) =
      some ((emissions (run tell s is).2).map Emission.received) := by
  rw [run_serviceStep_eq, wire_acts hreset]
  exact decodeAll_flatMap fun e he ↦ decodeFrame_undoes (run_tell_fits s is e he)

/-- The start of a service at a UART. -/
def node : Service := .boot false 0 {}

/-- A host sends three bytes, and its node airs them. -/
def sendOnce : List ServiceStep :=
  ([0x54, 0x58, 3, 0, 1, 2, 3].map fun b ↦ .serve (.byte { byte := b, now := 10 }) {}) ++
    [.serve (.empty 10) {}, .poll { pollAt 4000 0 with
      burst := ⟨1, 0, fun _ _ ↦ ⟨0, 0, [⟨10, irqTxDone⟩]⟩⟩ }]

/-- A packet that the host is given. -/
def Emission.rx? : Emission → Option (List UInt8 × Int16)
  | rx pkt rssi => some (pkt, rssi)
  | _ => none

end RadioService.Serial
