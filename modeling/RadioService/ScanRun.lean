import RadioService.BurstTrace
import RadioService.Scanless
import RadioService.ScanSpec

/-!
# Scans under polls

A poll runs the thermal guard first, then the tick of a scan, then traffic.
The guard leaves a scan as it is, or ends it on the way back from a cutoff; the
traffic only counts.  What a poll does to a scan is read off the state before it.
-/

namespace RadioService

open Burst Traced Machine

/-! ## The thermal guard -/

/-- What a scan is: its parameters, the frequency to go back to, the channel it
is on and the end of the dwell. -/
def Settings.sweep (s : Settings) : ScanParams × UInt32 × UInt8 × UInt32 :=
  (s.scan, s.preScanFreqHz, s.scanIdx, s.scanDwellUntil)

/-- The poll comes back from a cutoff. -/
def revives (w : RadioWorker) (io : PollInput) : Bool :=
  pollLevel w io == 0 && w.thermalLevel != 0 && w.thermalPoweredDown

/-- It does so with the radio. -/
def recovers (w : RadioWorker) (io : PollInput) : Bool :=
  revives w io && decide io.thermal.init.ok

/-- What the thermal guard leaves of a scan. -/
structure Ticked (w : RadioWorker) (io : PollInput) (s : Settings) : Prop where
  sweep : s.sweep = w.toSettings.sweep
  level : s.thermalLevel = pollLevel w io
  active : s.scanActive = (w.scanActive && !recovers w io)
  freq : s.cfg.frequencyHz = w.cfg.frequencyHz
  role : s.cfg.role = w.cfg.role
  ok : w.radioOk = true → s.radioOk = true
  chip : revives w io = false → s.chipFreqHz = w.chipFreqHz

/-- The settings behind the guard and in front of the scan. -/
def ticked (w : RadioWorker) (io : PollInput) : Settings :=
  ((thermalTick io.nowMs io.thermal).run w).state.toSettings

theorem Configures.sweep {cfg : Config} {io : ConfigInput} {s s' : Settings}
    {v : Except String Unit} {ws : List (Settings × Int8)} (h : Configures cfg io s v s' ws) :
    s'.sweep = s.sweep ∧ s'.radioOk = s.radioOk ∧ s'.thermalLevel = s.thermalLevel := by
  cases h <;> exact ⟨rfl, rfl, rfl⟩

theorem Configures.again {io : ConfigInput} {s s' : Settings} {v : Except String Unit}
    {ws : List (Settings × Int8)} (h : Configures s.cfg io s v s' ws) (hok : s.radioOk = true) :
    s'.scanActive = false ∧ s'.cfg.frequencyHz = s.cfg.frequencyHz ∧ s'.cfg.role = s.cfg.role := by
  cases h with
  | refused hdown => exact absurd (hok.symm.trans hdown) (by decide)
  | unchanged _ h => exact ⟨(configUnchanged_iff.mp h).1, rfl, rfl⟩
  | failed | applied => exact ⟨rfl, clampConfig_frequencyHz _ _, clampConfig_role _ _⟩

theorem Ticked.of_same {w : RadioWorker} {io : PollInput} {s s' : Settings}
    (hread : s.noSensor = w.toSettings.noSensor) (hno : revives w io = false)
    (hlevel : s'.thermalLevel = pollLevel w io) (hsweep : s'.sweep = s.sweep)
    (hactive : s'.scanActive = s.scanActive) (hcfg : s'.cfg = s.cfg)
    (hok : s'.radioOk = s.radioOk) (hchip : s'.chipFreqHz = s.chipFreqHz) : Ticked w io s' := by
  have hcfg' : s'.cfg = w.cfg := hcfg.trans (congrArg Settings.cfg hread :)
  have hok' : s.radioOk = w.radioOk := (congrArg Settings.radioOk hread :)
  refine ⟨hsweep.trans (congrArg Settings.sweep hread :), hlevel, ?_,
    congrArg Config.frequencyHz hcfg', congrArg Config.role hcfg',
    (hok.trans hok').trans, fun _ ↦ hchip.trans (congrArg Settings.chipFreqHz hread :)⟩
  rw [recovers, hno, Bool.false_and, Bool.not_false, Bool.and_true]
  exact hactive.trans (congrArg Settings.scanActive hread :)

theorem ticked_spec (w : RadioWorker) (io : PollInput) : Ticked w io (ticked w io) := by
  obtain ⟨s, s', ws, hread, htick, -, hcases⟩ := thermalTick_cases io.nowMs io.thermal w
  rw [ticked, htick]
  have hlevel : s.thermalLevel = w.thermalLevel := (congrArg Settings.thermalLevel hread :)
  have hdown : w.thermalPoweredDown = s.thermalPoweredDown :=
    (congrArg Settings.thermalPoweredDown hread.symm :)
  rcases hcases with ⟨hsame, rfl, -⟩ | ⟨hnew, henter⟩
  · have hno : revives w io = false := by simp [revives, pollLevel, hsame]
    exact .of_same hread hno (hlevel.trans hsame.symm) rfl rfl rfl rfl rfl
  · have hlast : w.thermalLevel ≠ pollLevel w io := fun h ↦ hnew h.symm
    generalize hnext : nextLevel w.toSettings io.nowMs io.thermal.reading = level at *
    change pollLevel w io = level at hnext
    cases henter with
    | cutoff => exact .of_same hread (by simp [revives, hnext]) hnext.symm rfl rfl rfl rfl rfl
    | throttled =>
        have hno : revives w io = false := by simp [revives, hnext]
        split <;> exact .of_same hread hno hnext.symm rfl rfl rfl rfl rfl
    | unthrottled =>
        exact .of_same hread (by simp [revives, hnext]) hnext.symm rfl rfl rfl rfl rfl
    | restored _ _ hup =>
        have hno : revives w io = false := by simp [revives, hdown, hup]
        split <;> exact .of_same hread hno hnext.symm rfl rfl rfl rfl rfl
    | idle hup =>
        exact .of_same hread (by simp [revives, hdown, hup]) hnext.symm rfl rfl rfl rfl rfl
    | other h => exact .of_same hread (by simp [revives, hnext, h.1]) hnext.symm rfl rfl rfl rfl rfl
    | failed hoff hio =>
        have hcfg : s.cfg = w.cfg := (congrArg Settings.cfg hread :)
        have hyes : revives w io = true := by
          simp [revives, hnext, hdown, hoff, hnext ▸ hlast]
        refine ⟨(congrArg Settings.sweep hread :), hnext.symm, ?_,
          congrArg Config.frequencyHz hcfg, congrArg Config.role hcfg,
          (congrArg Settings.radioOk hread :).trans,
          fun h ↦ absurd (hyes.symm.trans h) (by decide)⟩
        rw [recovers, decide_eq_false hio, Bool.and_false, Bool.not_false, Bool.and_true]
        exact (congrArg Settings.scanActive hread :)
    | started hoff hio hconfig =>
        have hcfg : s.cfg = w.cfg := (congrArg Settings.cfg hread :)
        have hyes : revives w io = true := by
          simp [revives, hnext, hdown, hoff, hnext ▸ hlast]
        obtain ⟨hsweep, hok, hzero⟩ := hconfig.sweep
        obtain ⟨hactive, hfreq, hrole⟩ := Configures.again (s :=
          { { s with thermalLevel := 0 }.started s.powerGpio with thermalPoweredDown := false })
          hconfig rfl
        refine ⟨hsweep.trans (congrArg Settings.sweep hread :), hzero.trans hnext.symm, ?_,
          hfreq.trans (congrArg Config.frequencyHz hcfg),
          hrole.trans (congrArg Config.role hcfg), fun _ ↦ hok,
          fun h ↦ absurd (hyes.symm.trans h) (by decide)⟩
        rw [hactive, recovers, hyes, decide_eq_true hio]
        simp

/-! ## The tally -/

def RadioWorker.tally (w : RadioWorker) : UInt32 × UInt32 × Int8 :=
  (w.scanFrames, w.scanConsensus, w.scanBestRssi)

/-- The effects that go with the tally: a packet is read, a channel reported. -/
def Effect.tallies : Effect → Bool
  | .radio (.readData _ _ _) | .onScanResult _ _ _ _ => true
  | _ => false

abbrev Steady {α : Type} (m : Work α) : Prop :=
  Frame RadioWorker.tally (fun _ e ↦ e.tallies = false) m

theorem Effect.tallies_of_setup {e : Effect} (h : e.setup = true) : e.tallies = false := by
  cases e with
  | radio op => cases op <;> first | rfl | cases h
  | _ => first | rfl | cases h

theorem SetsUp.steady {α : Type} {m : Work α} (h : SetsUp m) : Steady m :=
  Frame.comp (f := RadioWorker.traffic) RadioWorker.tally (fun _ _ ↦ Effect.tallies_of_setup) h

namespace Steady

theorem enqueueTx (frame : TxFrame) : Steady (enqueueTx frame) :=
  enqueueTx_frame (fun _ _ _ ↦ rfl) frame

theorem thermalTick (now : UInt32) (io : ThermalInput) : Steady (thermalTick now io) := by
  have hrules : GuardRules fun m ↦ Steady m := SetsUp.rules.lift Frame.bind SetsUp.steady
  exact hrules.thermalTick now io (Frame.update fun _ ↦ rfl)
    (readLevel_sensorOnly io.reading).setsUp.steady (drain_frame (fun _ ↦ rfl) fun _ _ ↦ rfl)

end Steady

/-! ## A poll -/

/-- The poll gets to the tick of a scan. -/
def ticks (w : RadioWorker) (io : PollInput) : Bool :=
  w.scanActive && !recovers w io && decide (pollLevel w io < 2)

def leaves (w : RadioWorker) (io : PollInput) : Bool := ticks w io && !dwelling w io.nowMs

structure BehindGuard (w : RadioWorker) (io : PollInput) (w₁ : RadioWorker)
    (log : List (RadioWorker × Effect)) : Prop where
  settings : w₁.toSettings = ticked w io
  tally : w₁.tally = w.tally
  log : ∀ p ∈ log, p.2.tallies = false

theorem BehindGuard.ticked {w w₁ : RadioWorker} {io : PollInput}
    {log : List (RadioWorker × Effect)} (h : BehindGuard w io w₁ log) :
    Ticked w io w₁.toSettings :=
  h.settings ▸ ticked_spec w io

theorem BehindGuard.dwelling {w w₁ : RadioWorker} {io : PollInput}
    {log : List (RadioWorker × Effect)} (h : BehindGuard w io w₁ log) :
    dwelling w₁ io.nowMs = dwelling w io.nowMs := by
  have hcons : w₁.scanConsensus = w.scanConsensus := (congrArg (·.2.1) h.tally :)
  have huntil : w₁.scanDwellUntil = w.scanDwellUntil := (congrArg (·.2.2.2) h.ticked.sweep :)
  rw [RadioService.dwelling, RadioService.dwelling, hcons, huntil]

/-- Below a cutoff the poll leaves a channel if the scan behind the guard is done with it. -/
theorem BehindGuard.leaves {w w₁ : RadioWorker} {io : PollInput}
    {log : List (RadioWorker × Effect)} (h : BehindGuard w io w₁ log)
    (hlow : pollLevel w io < 2) :
    leaves w io = (w₁.scanActive && !RadioService.dwelling w₁ io.nowMs) := by
  rw [RadioService.leaves, ticks, h.ticked.active, h.dwelling, decide_eq_true hlow, Bool.and_true]

theorem thermalTick_behind (io : PollInput) (w : RadioWorker) :
    BehindGuard w io ((thermalTick io.nowMs io.thermal).run w).state
      ((thermalTick io.nowMs io.thermal).run w).log := by
  obtain ⟨htally, hlog⟩ := Steady.thermalTick io.nowMs io.thermal w
  exact ⟨rfl, htally, fun p hp ↦ (hlog p hp).2⟩

/-- A poll, cut at the test of its level and at the report of a channel. -/
theorem pollOnce_run (io : PollInput) (w : RadioWorker) :
    ∃ w₁ log, BehindGuard w io w₁ log ∧ (pollOnce io).run w =
      if pollLevel w io ≥ 2 then ⟨(), w₁, log⟩
      else if leaves w io then
        ((afterScan io).run ((moveOn io.nowMs io.scanFreqSt).run w₁).state).prepend
          (log ++ (w₁, w.report) :: ((moveOn io.nowMs io.scanFreqSt).run w₁).log)
      else ((afterScan io).run w₁).prepend log := by
  let w₁ : RadioWorker := ((thermalTick io.nowMs io.thermal).run w).state
  let log := ((thermalTick io.nowMs io.thermal).run w).log
  have hguard : BehindGuard w io w₁ log := thermalTick_behind io w
  have hticked := hguard.ticked
  refine ⟨w₁, log, hguard, ?_⟩
  have hrun : (pollOnce io).run w = ((if w₁.thermalLevel ≥ 2 then pure ()
      else if w₁.scanActive then (do scanTick io.nowMs io.scanFreqSt; afterScan io)
      else afterScan io : Work Unit).run w₁).prepend log := rfl
  rw [hrun, hticked.level]
  split
  · simp
  · rename_i hlow
    have hreport : w₁.report = w.report := by
      have hscan : w₁.scan = w.scan := (congrArg (·.1) hticked.sweep :)
      have hidx : w₁.scanIdx = w.scanIdx := (congrArg (·.2.2.1) hticked.sweep :)
      have hframes : w₁.scanFrames = w.scanFrames := (congrArg (·.1) hguard.tally :)
      have hcons : w₁.scanConsensus = w.scanConsensus := (congrArg (·.2.1) hguard.tally :)
      have hbest : w₁.scanBestRssi = w.scanBestRssi := (congrArg (·.2.2) hguard.tally :)
      rw [RadioWorker.report, RadioWorker.report, hscan, hidx, hframes, hcons, hbest]
    rw [hguard.leaves (not_le.mp hlow)]
    cases w₁.scanActive with
    | false => rfl
    | true =>
        cases hmove : dwelling w₁ io.nowMs with
        | true => simp [scanTick_run, hmove]
        | false => simp [scanTick_run, hmove, hreport]

def results (log : List (RadioWorker × Effect)) : List Effect :=
  (log.map Prod.snd).filter Effect.isResult

@[simp] theorem results_append (l l' : List (RadioWorker × Effect)) :
    results (l ++ l') = results l ++ results l' := by
  simp [results]

theorem results_eq_nil {log : List (RadioWorker × Effect)}
    (h : ∀ p ∈ log, p.2.isResult = false) : results log = [] := by
  refine List.filter_eq_nil_iff.mpr fun e he ↦ ?_
  obtain ⟨p, hp, rfl⟩ := List.mem_map.mp he
  simp [h p hp]

theorem Effect.isResult_of_traffic {e : Effect} (h : e.traffic = true) : e.isResult = false := by
  cases e <;> first | rfl | cases h

theorem Effect.isResult_of_setup {e : Effect} (h : e.setup = true) : e.isResult = false := by
  cases e <;> first | rfl | cases h

theorem Effect.isResult_of_tallies {e : Effect} (h : e.tallies = false) : e.isResult = false := by
  cases e <;> first | rfl | cases h

theorem afterScan_results (io : PollInput) (w : RadioWorker) :
    results ((afterScan io).run w).log = [] :=
  results_eq_nil fun p hp ↦ Effect.isResult_of_traffic ((afterScan_keeps io w).2 p hp).2

theorem moveOn_results (now : UInt32) (freqSt : Int16) (w : RadioWorker) :
    results ((moveOn now freqSt).run w).log = [] :=
  results_eq_nil fun p hp ↦ Effect.isResult_of_setup ((moveOn_traffic now freqSt w).2 p hp)

theorem BehindGuard.results {w w₁ : RadioWorker} {io : PollInput}
    {log : List (RadioWorker × Effect)} (h : BehindGuard w io w₁ log) : results log = [] :=
  results_eq_nil fun p hp ↦ Effect.isResult_of_tallies (h.log p hp)

/-- What a poll does to a scan: it reports the channel that it leaves, and no other. -/
theorem poll_scan (io : PollInput) (w : RadioWorker) :
    ((pollOnce io).run w).state.toSettings =
        (if leaves w io then (ticked w io).leaveChannel io.nowMs io.scanFreqSt
          else ticked w io) ∧
      results ((pollOnce io).run w).log = if leaves w io then [w.report] else [] := by
  obtain ⟨w₁, log, hguard, hrun⟩ := pollOnce_run io w
  rw [hrun, ← hguard.settings]
  by_cases hcut : pollLevel w io ≥ 2
  · have hstay : leaves w io = false := by simp [leaves, ticks, not_lt.mpr hcut]
    simp [hcut, hstay, hguard.results]
  · rw [if_neg hcut]
    cases leaves w io with
    | false =>
        refine ⟨(afterScan_keeps io w₁).1, ?_⟩
        simp [hguard.results, afterScan_results]
    | true =>
        have hmove := (moveOn_does io.nowMs io.scanFreqSt w₁.toSettings w₁ rfl).2.1
        refine ⟨(afterScan_keeps io _).1.trans hmove, ?_⟩
        have hreport : results (log ++ (w₁, w.report) ::
            ((moveOn io.nowMs io.scanFreqSt).run w₁).log) = [w.report] := by
          rw [results_append, hguard.results]
          exact congrArg (w.report :: ·) (moveOn_results io.nowMs io.scanFreqSt w₁)
        rw [if_pos rfl, if_pos rfl, Outcome.prepend_log, results_append, hreport,
          afterScan_results, List.append_nil]

def Call.isPoll : Call → Bool
  | .pollOnce _ => true
  | _ => false

theorem workerStep_results {c : Call} (hc : c.isPoll = false) (w : RadioWorker) :
    results (workerStep w c).2 = [] := by
  cases c with
  | applyConfig cfg io =>
      exact results_eq_nil fun p hp ↦
        Effect.isResult_of_setup (((SetsUp.rules.applyConfig cfg io).discard w).2 p hp).2
  | startScan p now freqSt =>
      exact results_eq_nil fun e he ↦
        Effect.isResult_of_setup ((startScan_traffic p now freqSt w).2 e he)
  | enqueueTx frame =>
      exact results_eq_nil fun p hp ↦
        Effect.isResult_of_traffic (((KeepsSettings.enqueueTx frame).discard w).2 p hp).2
  | pollOnce io => cases hc

theorem applyConfig_scan (cfg : Config) (io : ConfigInput) (w : RadioWorker) :
    (workerStep w (.applyConfig cfg io)).1.toSettings = w.toSettings ∨
      (workerStep w (.applyConfig cfg io)).1.scanActive = false := by
  obtain ⟨v, s', ws, hcases, hdoes⟩ := applyConfig_cases cfg io w.toSettings
  have hstate : (workerStep w (.applyConfig cfg io)).1.toSettings = s' := (hdoes.discard w rfl).2.1
  rw [hstate]
  cases hcases with
  | refused | unchanged => exact .inl rfl
  | failed | applied => exact .inr rfl

theorem enqueueTx_settings (frame : TxFrame) (w : RadioWorker) :
    (workerStep w (.enqueueTx frame)).1.toSettings = w.toSettings :=
  ((KeepsSettings.enqueueTx frame).discard w).1

theorem startScan_settings (p : ScanParams) (now : UInt32) (freqSt : Int16) (w : RadioWorker) :
    (workerStep w (.startScan p now freqSt)).1.toSettings = w.toSettings.scanning p now freqSt :=
  (startScan_does p now freqSt w.toSettings w rfl).2.1

end RadioService
