import RadioService.Quiet

/-!
# The radio without power

A cutoff takes the power off the radio, and only `init` gives it back.  Until
then nothing outside of `init` should be asked of it.  The worker however
remembers the radio as initialised, and leaves level 2 before it knows whether
`init` works.
-/

namespace RadioService

open Burst Traced Machine

/-- Operations on a radio without power come from `init`. -/
def OpAllowed (p : RadioWorker × Effect) : Prop :=
  ∀ op, p.2 = .radio op → p.1.thermalPoweredDown = true → p.1.inInit = true

/-- A call keeps off a radio without power, and leaves such a radio at the
cutoff level. -/
def CutRespected (w : RadioWorker) (c : Call) : Prop :=
  (∀ p ∈ (workerStep w c).2, OpAllowed p) ∧
    ((workerStep w c).1.thermalPoweredDown = true → (workerStep w c).1.thermalLevel ≥ 2)

/-- What keeps to that while the power is cut: CONFIGs that ask for nothing
new, scans without a frequency, polls that stay at level 2 or whose `init`
succeeds at level 0. -/
def CutKept (w : RadioWorker) : Call → Prop
  | .applyConfig cfg _ => w.thermalPoweredDown = true →
      configUnchanged w.toSettings (clampConfig w.thermalLevel cfg) = true
  | .startScan p _ _ => w.thermalPoweredDown = true → p.startHz = 0
  | .enqueueTx _ => True
  | .pollOnce io => w.thermalPoweredDown = true →
      pollLevel w io = 2 ∨ pollLevel w io = 0 ∧ io.thermal.init.ok

/-- The state file, if it is read, holds a level that the worker knows. -/
def Call.KnownLevel : Call → Prop
  | .pollOnce io => ∀ f, io.thermal.reading.file = some f → f.lvl = 0 ∨ f.lvl = 1 ∨ f.lvl = 2
  | _ => True

/-! ## The guard of the radio -/

abbrev KeepsGuard {α : Type} (m : Work α) : Prop :=
  Frame (fun w : RadioWorker ↦ w.toSettings.guard) (fun _ _ ↦ True) m

theorem ScanOnly.keepsGuard {α : Type} {m : Work α} (h : ScanOnly m) : KeepsGuard m :=
  Frame.comp (f := fun w : RadioWorker ↦ w.toSettings.noScan) Settings.guard
    (fun _ _ _ ↦ trivial) h

theorem KeepsSettings.keepsGuard {α : Type} {m : Work α} (h : KeepsSettings m) : KeepsGuard m :=
  h.scanOnly.keepsGuard

theorem Quiet.keepsGuard {α : Type} {m : Work α} (h : Quiet m) : KeepsGuard m :=
  Frame.comp (f := fun w : RadioWorker ↦ (w.toSettings.guard, w.txQ)) Prod.fst
    (fun _ _ _ ↦ trivial) h

/-- Nothing is wrong with what happens to a radio with power, or in `init`. -/
theorem KeepsGuard.logs {α : Type} {m : Work α} (hm : KeepsGuard m) {w : RadioWorker}
    (hw : w.thermalPoweredDown = true → w.inInit = true) : Logs OpAllowed m w := by
  refine Logs.of_frame hm fun p hp _ op _ hdown ↦ ?_
  simp only [Settings.guard, Prod.mk.injEq] at hp
  obtain ⟨-, hinit, -, hpower⟩ := hp
  rw [hinit]
  exact hw (hpower ▸ hdown)

/-! ## `init` and the thermal guard -/

theorem init_logs (gpio : ℕ) (io : InitInput) (w : RadioWorker) :
    Logs OpAllowed (init gpio io) w := by
  let w' : RadioWorker := { w with powerGpio := gpio, inInit := true }
  have hpower : ∀ pin high, Logs OpAllowed (issue (.powerSet pin high) : Work Unit) w' :=
    fun _ _ ↦ Logs.issue fun _ h ↦ by cases h
  have hbegin := (Quiet.rules.beginFLRC io).keepsGuard
  have hin : ((beginFLRC io).run w').state.inInit = true :=
    congrArg (fun g : Bool × Bool × Int × Bool ↦ g.2.1) (hbegin w').1
  refine Logs.update ((hpower _ _).bind ((hpower _ _).bind ?_))
  refine (hbegin.logs fun _ ↦ rfl).bind (Logs.ite (fun _ ↦ Logs.update (Logs.pure _)) fun _ ↦ ?_)
  refine (Logs.issue fun _ _ _ ↦ hin).bind (Logs.update ?_)
  exact Logs.bind (Quiet.rules.arm.keepsGuard.logs fun _ ↦ hin) (Logs.update (Logs.pure _))

theorem reviveRadio_logs (io : ThermalInput) (w : RadioWorker) :
    Logs OpAllowed (reviveRadio io) w := by
  refine Logs.bind (Logs.pure _) ((init_logs _ _ _).bind (Logs.ite (fun _ ↦ ?_) fun _ ↦ ?_))
  · exact Logs.update <|
      KeepsGuard.logs (Quiet.rules.applyConfig _ _).keepsGuard.discard fun h ↦ by cases h
  · exact Logs.pure _

theorem cutPower_logs {w : RadioWorker} (hw : w.thermalPoweredDown = false) :
    Logs OpAllowed cutPower w := by
  have hpower : ∀ (pin : ℕ) (high : Bool) (w : RadioWorker),
      Logs OpAllowed (issue (.powerSet pin high) : Work Unit) w :=
    fun _ _ _ ↦ Logs.issue fun _ h ↦ by cases h
  have hoff : ∀ w' : RadioWorker, Logs OpAllowed (do
      issue (.powerSet 42 true)
      issue (.powerSet w.powerGpio false)
      update fun w ↦ { w with thermalPoweredDown := true } : Work Unit) w' :=
    fun _ ↦ (hpower _ _ _).bind ((hpower _ _ _).bind (Logs.update (Logs.pure ())))
  refine Logs.bind (Logs.pure _) (Logs.ite (fun _ ↦ ?_) fun _ ↦ hoff _)
  exact (Quiet.rules.standby.keepsGuard.logs fun h ↦ by simp [hw] at h).bind (hoff _)

theorem reportDropped_logs (frames : List TxFrame) (w : RadioWorker) :
    Logs OpAllowed (reportDropped frames) w := by
  intro p hp op hop
  obtain ⟨e, he, rfl⟩ := List.mem_map.mp hp
  obtain ⟨frame, -, rfl⟩ := List.mem_map.mp he
  cases hop

theorem recover_logs (prev : Int) (io : ThermalInput) (w : RadioWorker) :
    Logs OpAllowed (recover prev io) w := by
  refine Logs.bind (Logs.pure _) (Logs.ite (fun _ ↦ reviveRadio_logs io _) fun hup ↦ ?_)
  refine Logs.ite (fun _ ↦ ?_) fun _ ↦ Logs.pure _
  exact (Quiet.rules.repower _ _).keepsGuard.logs fun hdown ↦ absurd hdown hup

theorem enterLevel_logs (prev : Int) {level : Int} (io : ThermalInput) {w : RadioWorker}
    (hw : w.thermalPoweredDown = true → level = 0) :
    Logs OpAllowed (enterLevel prev level io) w := by
  have hup : level ≠ 0 → w.thermalPoweredDown = false := fun hne ↦ by
    simpa using mt hw hne
  refine Logs.update (Logs.ite (fun h2 ↦ ?_) fun _ ↦ Logs.ite (fun h1 ↦ ?_) fun _ ↦
    Logs.ite (fun _ ↦ recover_logs _ _ _) fun _ ↦ Logs.pure _)
  · have hne : level ≠ 0 := by rintro rfl; simp at h2
    have hdrain : ∀ w, Logs OpAllowed drainTxQ w :=
      fun _ ↦ Logs.bind (Logs.pure _) (Logs.update (Logs.pure _))
    exact Logs.bind (cutPower_logs (hup hne)) ((hdrain _).bind (reportDropped_logs _ _))
  · have hne : level ≠ 0 := by rintro rfl; simp at h1
    refine Logs.bind (Logs.pure _) (Logs.ite (fun _ ↦ ?_) fun _ ↦ Logs.pure _)
    exact (Quiet.rules.repower _ _).keepsGuard.logs fun hdown ↦
      absurd ((hup hne).symm.trans hdown) (by simp)

/-! ## Calls -/

/-- The state between calls as long as the cut is respected. -/
structure Guarded (w : RadioWorker) : Prop where
  ok : w.radioOk = true
  outside : w.inInit = false
  level : w.thermalLevel = 0 ∨ w.thermalLevel = 1 ∨ w.thermalLevel = 2
  cut : w.thermalPoweredDown = true ↔ w.thermalLevel = 2

theorem guarded_of_guard {w w' : RadioWorker} (h : w'.toSettings.guard = w.toSettings.guard)
    (hw : Guarded w) : Guarded w' := by
  simp only [Settings.guard, Prod.mk.injEq] at h
  obtain ⟨hok, hinit, hlevel, hdown⟩ := h
  exact ⟨hok.trans hw.ok, hinit.trans hw.outside, by rw [hlevel]; exact hw.level,
    by rw [hdown, hlevel]; exact hw.cut⟩

/-- A call that leaves the guard alone respects the cut exactly if it drives no
radio without power. -/
theorem respected_of_keepsGuard {w : RadioWorker} {c : Call} (hw : Guarded w)
    (hc : KeepsGuard c.exec)
    (hlog : (w.thermalPoweredDown = true → ∀ p ∈ (workerStep w c).2, OpAllowed p) ↔ CutKept w c) :
    (CutRespected w c ↔ CutKept w c) ∧ (CutKept w c → Guarded (workerStep w c).1) := by
  have hnext : Guarded (workerStep w c).1 := guarded_of_guard (hc w).1 hw
  refine ⟨?_, fun _ ↦ hnext⟩
  rw [CutRespected, and_iff_left fun hdown ↦ (hnext.cut.mp hdown).ge, ← hlog]
  refine ⟨fun h _ ↦ h, fun h ↦ ?_⟩
  by_cases hdown : w.thermalPoweredDown = true
  · exact h hdown
  · exact hc.logs fun h ↦ absurd h hdown

theorem applyConfig_respected_iff {w : RadioWorker} (hw : Guarded w) (cfg : Config)
    (io : ConfigInput) :
    (CutRespected w (.applyConfig cfg io) ↔ CutKept w (.applyConfig cfg io)) ∧
      (CutKept w (.applyConfig cfg io) → Guarded (workerStep w (.applyConfig cfg io)).1) := by
  refine respected_of_keepsGuard hw (Quiet.rules.applyConfig cfg io).keepsGuard.discard ?_
  refine forall_congr' fun hdown ↦ ?_
  have hlog : (workerStep w (.applyConfig cfg io)).2 = ((applyConfig cfg io).run w).log := by
    change ((discard (applyConfig cfg io)).run w).log = _
    rw [run_discard]
  rw [hlog]
  cases hnew : configUnchanged w.toSettings (clampConfig w.thermalLevel cfg)
  · refine iff_of_false (fun h ↦ ?_) (by simp)
    have hfirst : ∃ w', w'.thermalPoweredDown = true ∧ w'.inInit = false ∧
        (w', .radio .standby) ∈ ((applyConfig cfg io).run w).log := by
      refine ⟨{ w with scanActive := false, cfg := clampConfig w.thermalLevel cfg }, hdown,
        hw.outside, ?_⟩
      simp [applyConfig, standby, radioCall, hw.ok, hnew]
    obtain ⟨w', hdown', hout, hmem⟩ := hfirst
    have hin := h _ hmem _ rfl hdown'
    exact absurd (hin.symm.trans hout) (by simp)
  · refine iff_of_true ?_ rfl
    have hnone : ((applyConfig cfg io).run w).log = [] := by
      simp [applyConfig, hw.ok, hnew]
    simp [hnone]

/-- A scan first leaves the chip alone if it has no frequency to start on, and
puts it on standby otherwise. -/
theorem startScan_log {w : RadioWorker} (hok : w.radioOk = true) (p : ScanParams)
    (now : UInt32) (freqSt : Int16) :
    (p.startHz = 0 → ((startScan p now freqSt).run w).log = []) ∧
      (p.startHz > 0 → ∃ w', w'.toSettings.guard = w.toSettings.guard ∧
        (w', .radio .standby) ∈ ((startScan p now freqSt).run w).log) := by
  have hbegin : ∀ w' : RadioWorker, w'.toSettings.guard = w.toSettings.guard →
      (p.startHz = 0 → ((beginScan p now freqSt).run w').log = []) ∧
      (p.startHz > 0 → ∃ w'', w''.toSettings.guard = w.toSettings.guard ∧
        (w'', .radio .standby) ∈ ((beginScan p now freqSt).run w').log) := by
    intro w' hw'
    have hok' : w'.radioOk = true := (congrArg Prod.fst hw').trans hok
    refine ⟨fun hp ↦ by simp [beginScan, hp], fun hp ↦ ⟨{ w' with
      scan := p, scanIdx := 0, scanFrames := 0, scanConsensus := 0, scanBestRssi := -128,
      scanDwellUntil := now + p.dwellMs, scanActive := true,
      st := { w'.st with pendingTxValid := 0 } }, hw', ?_⟩⟩
    simp [beginScan, standby, radioCall, hok', hp]
  rw [startScan_run]
  split
  · exact hbegin { w with preScanFreqHz := w.cfg.frequencyHz } rfl
  · exact hbegin w rfl

theorem startScan_respected_iff {w : RadioWorker} (hw : Guarded w) (p : ScanParams)
    (now : UInt32) (freqSt : Int16) :
    (CutRespected w (.startScan p now freqSt) ↔ CutKept w (.startScan p now freqSt)) ∧
      (CutKept w (.startScan p now freqSt) →
        Guarded (workerStep w (.startScan p now freqSt)).1) := by
  refine respected_of_keepsGuard hw (Scans.startScan p now freqSt).quiet.keepsGuard ?_
  refine forall_congr' fun hdown ↦ ?_
  obtain ⟨hnone, hsome⟩ := startScan_log hw.ok p now freqSt
  change (∀ q ∈ ((startScan p now freqSt).run w).log, OpAllowed q) ↔ p.startHz = 0
  by_cases hp : p.startHz = 0
  · exact iff_of_true (by simp [hnone hp]) hp
  · refine iff_of_false (fun h ↦ ?_) hp
    obtain ⟨w', hguard, hmem⟩ := hsome (UInt32.pos_iff_ne_zero.mpr hp)
    simp only [Settings.guard, Prod.mk.injEq] at hguard
    obtain ⟨-, hinit, -, hpower⟩ := hguard
    have hin := h _ hmem _ rfl (hpower.trans hdown)
    exact absurd (hin.symm.trans (hinit.trans hw.outside)) (by simp)

theorem enqueueTx_respected_iff {w : RadioWorker} (hw : Guarded w) (frame : TxFrame) :
    (CutRespected w (.enqueueTx frame) ↔ CutKept w (.enqueueTx frame)) ∧
      (CutKept w (.enqueueTx frame) → Guarded (workerStep w (.enqueueTx frame)).1) := by
  refine respected_of_keepsGuard hw
    (KeepsSettings.enqueueTx frame).keepsGuard.discard (iff_of_true ?_ trivial)
  have hnone : ((enqueueTx frame).run w).log = [] := by
    unfold enqueueTx pushFrame
    by_cases hrefused : enqueueRefused w = true <;> by_cases hfull : w.txQ.length ≥ 16 <;>
      simp [hrefused, hfull]
  change _ → ∀ p ∈ ((discard (enqueueTx frame)).run w).log, OpAllowed p
  simp [hnone]

theorem configures_guard {s s' : Settings} {cfg : Config} {io : ConfigInput}
    {v : Except String Unit} {ws : List (Settings × Int8)} (h : Configures cfg io s v s' ws) :
    s'.guard = s.guard := by
  cases h <;> rfl

/-- Entering a level: the power is off at level 2, and stays off where it was
until an `init` at level 0 succeeds. -/
theorem enters_guard {s s' : Settings} {io : ThermalInput} {prev level : Int}
    {ws : List (Settings × Int8)} (h : Enters io prev s level s' ws) (hok : s.radioOk = true)
    (hout : s.inInit = false) (hlevel : level = 0 ∨ level = 1 ∨ level = 2) :
    s'.guard = (true, false, level,
      level == 2 || (s.thermalPoweredDown && !(level == 0 && decide io.init.ok))) := by
  cases h with
  | cutoff => simp [Settings.guard, hok, hout]
  | throttled _ hup => split <;> simp [Settings.guard, hok, hout, hup]
  | unthrottled h =>
      have hdown : s.thermalPoweredDown = true := by simpa [hok] using h
      simp [Settings.guard, hok, hout, hdown]
  | restored _ _ hup => split <;> simp [Settings.guard, hok, hout, hup]
  | idle hup _ => simp [Settings.guard, hok, hout, hup]
  | failed hdown hio _ => simp [Settings.guard, Settings.starting, hok, hdown, hio]
  | started hdown hio hconfig =>
      rw [configures_guard hconfig]
      simp [Settings.guard, Settings.started, hio]
  | other h => omega

theorem tick_guard {w : RadioWorker} (hw : Guarded w) (io : PollInput)
    (hlevel : pollLevel w io = 0 ∨ pollLevel w io = 1 ∨ pollLevel w io = 2) :
    ((thermalTick io.nowMs io.thermal).run w).state.toSettings.guard =
      (true, false, pollLevel w io, pollLevel w io == 2 ||
        (w.thermalPoweredDown && !(pollLevel w io == 0 && decide io.thermal.init.ok))) := by
  obtain ⟨s, s', ws, hread, htick, -, hcases⟩ := thermalTick_cases io.nowMs io.thermal w
  have hsame : s.guard = w.toSettings.guard := (congrArg Settings.guard hread :)
  rw [htick]
  change pollLevel w io = _ ∧ _ ∨ pollLevel w io ≠ _ ∧ Enters _ _ _ (pollLevel w io) _ _ at hcases
  generalize pollLevel w io = level at *
  rcases hcases with ⟨rfl, rfl, -⟩ | ⟨-, henter⟩
  · rw [hsame]
    cases hdown : w.thermalPoweredDown
    · have hne : w.thermalLevel ≠ 2 := fun h ↦ by simp [hw.cut.mpr h] at hdown
      simp [Settings.guard, hw.ok, hw.outside, hdown, hne]
    · simp [Settings.guard, hw.ok, hw.outside, hdown, hw.cut.mp hdown]
  · simp only [Settings.guard, Prod.mk.injEq] at hsame
    obtain ⟨hok, hinit, -, hdown⟩ := hsame
    rw [← hdown]
    exact enters_guard henter (hok.trans hw.ok) (hinit.trans hw.outside) hlevel

/-- The two ways a poll can drive the radio: entering a level, and behind its
tick. -/
theorem pollOnce_logs {w : RadioWorker} {io : PollInput}
    (hdown : w.thermalPoweredDown = true → pollLevel w io = w.thermalLevel ∨ pollLevel w io = 0)
    (htick : ((thermalTick io.nowMs io.thermal).run w).state.thermalPoweredDown = true →
      ((thermalTick io.nowMs io.thermal).run w).state.thermalLevel ≥ 2) :
    Logs OpAllowed (pollOnce io) w := by
  have htickLogs : Logs OpAllowed (thermalTick io.nowMs io.thermal) w := by
    obtain ⟨w', l, hsame, hboard, hrun⟩ := thermalTick_run io.nowMs io.thermal w
    have hread : ∀ p ∈ l, OpAllowed p := by
      intro p hp op hop
      have h := (hboard p hp).2
      rw [hop] at h
      cases h
    unfold Logs
    rw [hrun]
    split <;> rename_i hstay
    · exact hread
    · have hpower : w'.thermalPoweredDown = w.thermalPoweredDown :=
        (congrArg (fun w ↦ w.thermalPoweredDown) hsame :)
      intro p hp
      rcases List.mem_append.mp hp with hp | hp
      · exact hread p hp
      · exact enterLevel_logs _ _ (fun h ↦ (hdown (hpower ▸ h)).resolve_left hstay) p hp
  rw [pollOnce_eq]
  refine htickLogs.bind ?_
  by_cases hcut : ((thermalTick io.nowMs io.thermal).run w).state.thermalPoweredDown = true
  · unfold Logs
    rw [afterTick_cut io (htick hcut)]
    simp
  · exact (afterTick_scanOnly io).keepsGuard.logs fun h ↦ absurd h hcut

theorem pollOnce_respected_iff {w : RadioWorker} (hw : Guarded w) (io : PollInput)
    (hlevel : pollLevel w io = 0 ∨ pollLevel w io = 1 ∨ pollLevel w io = 2) :
    (CutRespected w (.pollOnce io) ↔ CutKept w (.pollOnce io)) ∧
      (CutKept w (.pollOnce io) → Guarded (workerStep w (.pollOnce io)).1) := by
  have htick := tick_guard hw io hlevel
  have hpoll : ((pollOnce io).run w).state.toSettings.guard = _ :=
    (congrArg Settings.guard (pollOnce_settings io w).1 :).trans htick
  have hcut := hw.cut
  simp only [Settings.guard, Prod.mk.injEq] at htick hpoll
  obtain ⟨-, -, hlevelTick, hdownTick⟩ := htick
  obtain ⟨hok, hout, hlevel', hdown'⟩ := hpoll
  have hstate : (((pollOnce io).run w).state.thermalPoweredDown = true →
      ((pollOnce io).run w).state.thermalLevel ≥ 2) ↔ CutKept w (.pollOnce io) := by
    rw [hlevel', hdown', CutKept]
    rcases hlevel with h | h | h <;> simp [h]
  have hlogs : CutKept w (.pollOnce io) → Logs OpAllowed (pollOnce io) w := by
    intro hkept
    refine pollOnce_logs (fun hdown ↦ ?_) fun hdown ↦ ?_
    · rw [hcut.mp hdown]
      exact (hkept hdown).imp_right And.left
    · rw [hlevelTick, ← hlevel']
      rw [hdownTick, ← hdown'] at hdown
      exact hstate.mpr hkept hdown
  refine ⟨⟨fun h ↦ hstate.mp h.2, fun h ↦ ⟨hlogs h, hstate.mpr h⟩⟩, fun h ↦ ?_⟩
  refine ⟨hok, hout, hlevel'.symm ▸ hlevel, ⟨fun hdown ↦ ?_, fun htwo ↦ ?_⟩⟩
  · have hge := hstate.mpr h hdown
    have hknown := hlevel'.symm ▸ hlevel
    change ((pollOnce io).run w).state.thermalLevel = 2
    omega
  · have htwo' : pollLevel w io = 2 := hlevel'.symm.trans htwo
    change ((pollOnce io).run w).state.thermalPoweredDown = true
    rw [hdown', htwo']
    rfl

/-! ## Runs -/

theorem sensorLevel_known {level : Int} (hlevel : level = 0 ∨ level = 1 ∨ level = 2) (t : ℚ) :
    sensorLevel level t = 0 ∨ sensorLevel level t = 1 ∨ sensorLevel level t = 2 := by
  unfold sensorLevel
  split_ifs <;> simp [hlevel]

theorem pollLevel_known {w : RadioWorker} {io : PollInput}
    (hw : w.thermalLevel = 0 ∨ w.thermalLevel = 1 ∨ w.thermalLevel = 2)
    (hio : (Call.pollOnce io).KnownLevel) :
    pollLevel w io = 0 ∨ pollLevel w io = 1 ∨ pollLevel w io = 2 := by
  unfold pollLevel nextLevel
  split
  case isFalse => exact hw
  unfold levelRead
  split
  · rename_i f hf
    exact hio f (Option.filter_eq_some_iff.mp hf).1
  · cases io.thermal.reading.sensor.filter validTemp with
    | none => exact hw
    | some t => exact sensorLevel_known hw t

theorem call_respected_iff {w : RadioWorker} (hw : Guarded w) {c : Call} (hc : c.KnownLevel) :
    (CutRespected w c ↔ CutKept w c) ∧ (CutKept w c → Guarded (workerStep w c).1) := by
  cases c with
  | applyConfig cfg io => exact applyConfig_respected_iff hw cfg io
  | startScan p now freqSt => exact startScan_respected_iff hw p now freqSt
  | enqueueTx frame => exact enqueueTx_respected_iff hw frame
  | pollOnce io => exact pollOnce_respected_iff hw io (pollLevel_known hw.level hc)

theorem booted_guarded : Guarded booted.state := by
  have hguard := congrArg Settings.guard booted_settings.2
  simp only [Settings.guard, Settings.started, Prod.mk.injEq] at hguard
  obtain ⟨hok, hout, hlevel, hdown⟩ := hguard
  exact ⟨hok, hout, .inl hlevel, by simp [hlevel, hdown]⟩

theorem pollAt_known {now : UInt32} {level : Int} {init : InitInput}
    (h : level = 0 ∨ level = 1 ∨ level = 2) :
    (Call.pollOnce (pollAt now level init)).KnownLevel := by
  rintro f ⟨⟩
  exact h

end RadioService
