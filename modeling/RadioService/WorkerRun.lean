import RadioService.ThermalSpec

/-!
# Runs of the worker

The superloop calls the worker one function at a time: host commands from the
serial server, and the worker's own poll.  A run starts where the service
does, behind a successful `init`.
-/

namespace RadioService

open Burst Traced Machine

/-! ## Scans -/

/-- The settings without those of a scan and without frequencies. -/
def Settings.noScan (s : Settings) : Settings :=
  { s with
    scan := {}, scanActive := false, preScanFreqHz := 0, scanIdx := 0, scanDwellUntil := 0
    chipFreqHz := 0, cfg := { s.cfg with frequencyHz := 0 } }

def Effect.scanning : Effect → Bool
  | .radio .standby | .radio .startReceive | .radio (.setFrequency _ _)
  | .onScanResult _ _ _ _ => true
  | _ => false

theorem Effect.power?_of_scanning {e : Effect} (h : e.scanning = true) : e.power? = none := by
  unfold Effect.power?
  split
  · cases h
  · rfl

/-- `m` scans: it leaves the thermal and power settings and the queue alone. -/
abbrev Scans {α : Type} (m : Work α) : Prop :=
  Frame (fun w : RadioWorker ↦ (w.toSettings.noScan, w.txQ)) (fun _ e ↦ e.scanning = true) m

/-- `m` scans and moves traffic, but leaves the thermal and power settings
alone and writes no power. -/
abbrev ScanOnly {α : Type} (m : Work α) : Prop :=
  Frame (fun w : RadioWorker ↦ w.toSettings.noScan) (fun _ e ↦ e.power? = none) m

theorem Scans.scanOnly {α : Type} {m : Work α} (h : Scans m) : ScanOnly m :=
  Frame.comp (f := fun w : RadioWorker ↦ (w.toSettings.noScan, w.txQ)) Prod.fst
    (fun _ _ ↦ Effect.power?_of_scanning) h

theorem KeepsSettings.scanOnly {α : Type} {m : Work α} (h : KeepsSettings m) : ScanOnly m :=
  Frame.comp Settings.noScan (fun _ _ ↦ Effect.power?_of_traffic) h

namespace Scans

theorem of_moves {α : Type} {m : Work α} (h : Moves Effect.scanning m) : Scans m :=
  Frame.comp (f := fun w : RadioWorker ↦ (w.toSettings, w.txQ)) (Prod.map Settings.noScan id)
    (fun _ _ he ↦ he) h

theorem standby : Scans standby := of_moves (Moves.standby rfl)

theorem armReceive : Scans armReceive := of_moves (Moves.armReceive rfl)

theorem setFrequency (hz : UInt32) (st : Int16) : Scans (setFrequency hz st) :=
  Frame.bind (Frame.issue fun _ ↦ rfl) fun _ ↦
    Frame.ite (Frame.updating rfl (Frame.pure st)) (Frame.pure st)

theorem beginScan (p : ScanParams) (now : UInt32) (freqSt : Int16) :
    Scans (beginScan p now freqSt) :=
  Frame.updating rfl <| Frame.read.bind fun _ ↦ Frame.ite (standby.bind fun _ ↦
    (setFrequency _ _).discard.bind fun _ ↦ Frame.updating rfl armReceive) (Frame.pure ())

theorem startScan (p : ScanParams) (now : UInt32) (freqSt : Int16) :
    Scans (startScan p now freqSt) :=
  Frame.read.bind fun _ ↦
    Frame.ite (Frame.updating rfl (beginScan p now freqSt)) (beginScan p now freqSt)

theorem endScan (freqSt : Int16) : Scans (endScan freqSt) :=
  Frame.updating rfl <| Frame.read.bind fun _ ↦ Frame.ite (standby.bind fun _ ↦
    (setFrequency _ _).discard.bind fun _ ↦ Frame.updating rfl armReceive) armReceive

theorem nextChannel (now : UInt32) (freqSt : Int16) : Scans (nextChannel now freqSt) :=
  Frame.read.bind fun _ ↦ standby.bind fun _ ↦ (setFrequency _ _).discard.bind fun _ ↦
    Frame.updating rfl armReceive

theorem scanTick (now : UInt32) (freqSt : Int16) : Scans (scanTick now freqSt) :=
  Frame.read.bind fun _ ↦ (Frame.pure ()).ite <| Frame.bind (Frame.issue fun _ ↦ rfl) fun _ ↦
    Frame.updating rfl <| Frame.read.bind fun _ ↦ (endScan freqSt).ite (nextChannel now freqSt)

end Scans

/-- A new scan, behind the frequency it will go home to. -/
theorem startScan_run (p : ScanParams) (now : UInt32) (freqSt : Int16) (w : RadioWorker) :
    (startScan p now freqSt).run w =
      if !w.scanActive && w.cfg.frequencyHz > 0 then
        (beginScan p now freqSt).run { w with preScanFreqHz := w.cfg.frequencyHz }
      else (beginScan p now freqSt).run w := by
  have hrun : (startScan p now freqSt).run w =
      (if !w.scanActive && w.cfg.frequencyHz > 0 then (do
        update fun w ↦ { w with preScanFreqHz := w.cfg.frequencyHz }
        beginScan p now freqSt) else beginScan p now freqSt : Work Unit).run w := rfl
  rw [hrun]
  split <;> rfl

/-! ## A poll behind its tick -/

/-- `pollOnce` from the test of the radio on. -/
def afterScan (io : PollInput) : Work Unit := do
  let w ← read
  if !w.radioOk then
    return ()
  if w.cfg.role == 1 then
    if !w.scanActive then
      serviceTxQueue io.burst
  else
    rxLoop io.rx {}
    let w ← read
    if !w.scanActive then
      serviceTxQueue io.burst

/-- `pollOnce` from the level test on. -/
def afterTick (io : PollInput) : Work Unit := do
  let w ← read
  if w.thermalLevel ≥ 2 then
    return ()
  if w.scanActive then
    scanTick io.nowMs io.scanFreqSt
  afterScan io

theorem pollOnce_eq (io : PollInput) :
    pollOnce io = thermalTick io.nowMs io.thermal >>= fun _ ↦ afterTick io := rfl

theorem afterScan_keeps (io : PollInput) : KeepsSettings (afterScan io) := by
  have hgated : ∀ w : RadioWorker, KeepsSettings (do
      if !w.scanActive then
        serviceTxQueue io.burst : Work Unit) :=
    fun w ↦ (KeepsSettings.serviceTxQueue io.burst).ite (Frame.pure ())
  exact Frame.read.bind fun w ↦ (Frame.pure ()).ite <| (hgated w).ite <|
    (KeepsSettings.rxLoop _ _).bind fun _ ↦ Frame.read.bind hgated

theorem afterTick_scanOnly (io : PollInput) : ScanOnly (afterTick io) := by
  have hrest := (afterScan_keeps io).scanOnly
  exact Frame.read.bind fun w ↦ (Frame.pure ()).ite <|
    Frame.ite ((Scans.scanTick _ _).scanOnly.bind fun _ ↦ hrest) hrest

theorem afterTick_cut (io : PollInput) {w : RadioWorker} (h : w.thermalLevel ≥ 2) :
    (afterTick io).run w = ⟨(), w, []⟩ := by
  simp [afterTick, h]

theorem afterTick_run (io : PollInput) (w : RadioWorker) :
    (afterTick io).run w =
      (if w.thermalLevel ≥ 2 then pure ()
      else if w.scanActive then (do scanTick io.nowMs io.scanFreqSt; afterScan io)
      else afterScan io : Work Unit).run w := rfl

theorem afterScan_run (io : PollInput) (w : RadioWorker) :
    (afterScan io).run w =
      (if !w.radioOk then pure ()
      else if w.cfg.role == 1 then (do
        if !w.scanActive then
          serviceTxQueue io.burst)
      else (do
        rxLoop io.rx {}
        let w ← read
        if !w.scanActive then
          serviceTxQueue io.burst) : Work Unit).run w := rfl

/-- Without a scan nothing behind the tick touches the settings. -/
theorem afterTick_settled (io : PollInput) {w : RadioWorker} (h : w.scanActive = false) :
    ((afterTick io).run w).state.toSettings = w.toSettings := by
  rw [afterTick_run, h]
  exact (Frame.ite (Frame.pure ()) (afterScan_keeps io) w).1

/-! ## Calls -/

/-- A call into the worker, with what the world answers during it. -/
inductive Call where
  | applyConfig (cfg : Config) (io : ConfigInput)
  | startScan (p : ScanParams) (now : UInt32) (freqSt : Int16)
  | enqueueTx (frame : TxFrame)
  | pollOnce (io : PollInput)

def Call.exec : Call → Work Unit
  | .applyConfig cfg io => discard (RadioService.applyConfig cfg io)
  | .startScan p now freqSt => RadioService.startScan p now freqSt
  | .enqueueTx frame => discard (RadioService.enqueueTx frame)
  | .pollOnce io => RadioService.pollOnce io

def workerStep : Step RadioWorker Call (RadioWorker × Effect) := machine Call.exec

/-- The worker behind the `init` of a service that comes up. -/
def booted : Outcome RadioWorker Effect Bool := (init 44 {}).run {}

theorem booted_settings : booted.val = true ∧
    booted.state.toSettings = ({} : Settings).started 44 :=
  let h := init_ok (show ({} : InitInput).ok by decide) 44 {} {} rfl
  ⟨h.1, h.2.1⟩

def pollLevel (w : RadioWorker) (io : PollInput) : Int :=
  nextLevel w.toSettings io.nowMs io.thermal.reading

/-- A poll of a silent radio, at a level read from the state file. -/
def pollAt (now : UInt32) (level : Int) (init : InitInput := {}) : PollInput where
  nowMs := now
  thermal := { reading := { file := some ⟨2, level, 60, 0⟩ }, init := init }
  burst := ⟨0, 0, fun _ _ ↦ ⟨0, 0, []⟩⟩

/-- A tick leaves the level and everything that depends on it alone, or enters
the level it has read. -/
theorem thermalTick_cases (now : UInt32) (io : ThermalInput) (w : RadioWorker) :
    ∃ s s' ws, s.noSensor = w.toSettings.noSensor ∧
      ((thermalTick now io).run w).state.toSettings = s' ∧
      powerWrites ((thermalTick now io).run w).log = ws ∧
      (nextLevel w.toSettings now io.reading = w.thermalLevel ∧ s' = s ∧ ws = [] ∨
        nextLevel w.toSettings now io.reading ≠ w.thermalLevel ∧
          Enters io w.thermalLevel s (nextLevel w.toSettings now io.reading) s' ws) := by
  obtain ⟨w', l, hw', hl, hrun⟩ := thermalTick_run now io w
  have hsame := congrArg RadioWorker.toSettings hw'
  have hboard : powerWrites l = [] := by
    refine powerWrites_eq_nil fun p hp ↦ ?_
    have hboard := (hl p hp).2
    revert hboard
    cases p.2 <;> simp [Effect.board, Effect.power?]
  by_cases h : nextLevel w.toSettings now io.reading = w.thermalLevel
  · rw [if_pos h] at hrun
    exact ⟨w'.toSettings, _, _, hsame, rfl, rfl, .inl ⟨h, by rw [hrun], by rw [hrun, hboard]⟩⟩
  · rw [if_neg h] at hrun
    obtain ⟨s', ws, hcases, hdoes⟩ := enterLevel_cases io w.thermalLevel
      (nextLevel w.toSettings now io.reading) w'.toSettings
    obtain ⟨-, hstate, hwrites⟩ := hdoes w' rfl
    refine ⟨w'.toSettings, s', ws, hsame, by rw [hrun, Outcome.prepend_state, hstate], ?_,
      .inr ⟨h, hcases⟩⟩
    rw [hrun, Outcome.prepend_log, powerWrites_append, hboard, hwrites, List.nil_append]

/-- Behind its tick a poll changes no thermal or power setting. -/
theorem pollOnce_settings (io : PollInput) (w : RadioWorker) :
    ((pollOnce io).run w).state.toSettings.noScan =
        ((thermalTick io.nowMs io.thermal).run w).state.toSettings.noScan ∧
      powerWrites ((pollOnce io).run w).log =
        powerWrites ((thermalTick io.nowMs io.thermal).run w).log := by
  rw [pollOnce_eq, run_bind]
  obtain ⟨hstate, hlog⟩ :=
    afterTick_scanOnly io ((thermalTick io.nowMs io.thermal).run w).state
  refine ⟨hstate, ?_⟩
  rw [Outcome.prepend_log, powerWrites_append, powerWrites_eq_nil fun p hp ↦ (hlog p hp).2,
    List.append_nil]

/-! ## Steps on the settings -/

/-- What a call can do to the settings, and which powers it writes. A poll
acts through the settings `s₁` behind its reading and `s₂` behind its tick. -/
inductive CallDoes (s : Settings) : Call → Settings → List (Settings × Int8) → Prop
  | config {cfg : Config} {io : ConfigInput} {v : Except String Unit} {s' : Settings}
      {ws : List (Settings × Int8)} (h : Configures cfg io s v s' ws) :
      CallDoes s (.applyConfig cfg io) s' ws
  | scan {p : ScanParams} {now : UInt32} {freqSt : Int16} {s' : Settings}
      (h : s'.noScan = s.noScan) : CallDoes s (.startScan p now freqSt) s' []
  | enqueue {frame : TxFrame} : CallDoes s (.enqueueTx frame) s []
  | stay {io : PollInput} {s₁ s' : Settings} (h₁ : s₁.noSensor = s.noSensor)
      (hlevel : nextLevel s io.nowMs io.thermal.reading = s.thermalLevel)
      (h' : s'.noScan = s₁.noScan) : CallDoes s (.pollOnce io) s' []
  | enter {io : PollInput} {s₁ s₂ s' : Settings} {ws : List (Settings × Int8)}
      (h₁ : s₁.noSensor = s.noSensor)
      (hlevel : nextLevel s io.nowMs io.thermal.reading ≠ s.thermalLevel)
      (h₂ : Enters io.thermal s.thermalLevel s₁ (nextLevel s io.nowMs io.thermal.reading) s₂ ws)
      (h' : s'.noScan = s₂.noScan) : CallDoes s (.pollOnce io) s' ws

theorem workerStep_does (w : RadioWorker) (c : Call) :
    CallDoes w.toSettings c (workerStep w c).1.toSettings (powerWrites (workerStep w c).2) := by
  cases c with
  | applyConfig cfg io =>
      obtain ⟨v, s', ws, hcases, hdoes⟩ := applyConfig_cases cfg io w.toSettings
      obtain ⟨-, hstate, hwrites⟩ := hdoes.discard w rfl
      change CallDoes _ _ ((discard (applyConfig cfg io)).run w).state.toSettings
        (powerWrites ((discard (applyConfig cfg io)).run w).log)
      rw [hstate, hwrites]
      exact .config hcases
  | startScan p now freqSt =>
      obtain ⟨hstate, hlog⟩ := (Scans.startScan p now freqSt).scanOnly w
      change CallDoes _ _ _ (powerWrites ((startScan p now freqSt).run w).log)
      rw [powerWrites_eq_nil fun p hp ↦ (hlog p hp).2]
      exact .scan hstate
  | enqueueTx frame =>
      obtain ⟨-, hstate, hwrites⟩ :=
        Does.keeps (KeepsSettings.enqueueTx frame).discard w.toSettings w rfl
      change CallDoes _ _ ((discard (enqueueTx frame)).run w).state.toSettings
        (powerWrites ((discard (enqueueTx frame)).run w).log)
      rw [hstate, hwrites]
      exact .enqueue
  | pollOnce io =>
      obtain ⟨hstate, hwrites⟩ := pollOnce_settings io w
      change CallDoes _ _ ((pollOnce io).run w).state.toSettings
        (powerWrites ((pollOnce io).run w).log)
      rw [hwrites]
      obtain ⟨s₁, s₂, ws, h₁, htick, hws, hcases⟩ := thermalTick_cases io.nowMs io.thermal w
      rw [htick] at hstate
      rw [hws]
      rcases hcases with ⟨hlevel, rfl, rfl⟩ | ⟨hlevel, henter⟩
      · exact .stay h₁ hlevel hstate
      · exact .enter h₁ hlevel henter hstate

/-- A condition on the powers written in a run is a condition on its steps. -/
theorem forall_powerWrites_run {P : Settings × Int8 → Prop} {w : RadioWorker}
    {calls : List Call} :
    (∀ p ∈ powerWrites (run workerStep w calls).2, P p) ↔
      Along workerStep (fun w c ↦ ∀ p ∈ powerWrites (workerStep w c).2, P p) w calls := by
  have hlog : ∀ log : List (RadioWorker × Effect), (∀ p ∈ powerWrites log, P p) ↔
      ∀ e ∈ log, ∀ dbm ∈ e.2.power?, P (e.1.toSettings, dbm) := by
    intro log
    simp only [powerWrites, List.mem_filterMap, Option.map_eq_some_iff, Option.mem_def]
    constructor
    · intro h e he dbm hdbm
      exact h _ ⟨e, he, dbm, hdbm, rfl⟩
    · rintro h p ⟨e, he, dbm, hdbm, rfl⟩
      exact h e he dbm hdbm
  simp only [hlog]
  exact forall_mem_run

end RadioService
