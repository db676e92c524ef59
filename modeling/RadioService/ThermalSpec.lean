import RadioService.ConfigSpec

/-!
# What a thermal tick does

A tick reads a level and, where it differs from the current one, enters it.
Reading touches the fan, the processor stage and the times only; entering a
level is worked out on the settings, branch by branch.
-/

namespace RadioService

open Burst Traced

/-! ## Initialisation -/

def InitInput.ok (io : InitInput) : Prop :=
  io.common = errNone ∧ io.freqSt = errNone ∧ io.calibrateSt = errNone ∧ io.powerSt = errNone

instance (io : InitInput) : Decidable io.ok := inferInstanceAs (Decidable (_ ∧ _))

theorem radioCall_does {op : RadioOp} (h : (Effect.radio op).power? = none) (s : Settings) :
    Does (radioCall op) s () s [] := by
  rintro w rfl
  refine ⟨rfl, rfl, powerWrites_eq_nil ?_⟩
  simpa [radioCall] using h

theorem issue_does {e : Effect} (h : e.power? = none) (s : Settings) :
    Does (issue e : Work Unit) s () s [] := by
  rintro w rfl
  refine ⟨rfl, rfl, powerWrites_eq_nil ?_⟩
  simpa using h

/-- The settings while `init` runs, with the frequency the chip has. -/
def Settings.starting (s : Settings) (gpio : ℕ) (freqHz : UInt32) : Settings :=
  { s with powerGpio := gpio, inInit := true, chipFreqHz := freqHz }

def Settings.started (s : Settings) (gpio : ℕ) : Settings :=
  { s with
    powerGpio := gpio, radioOk := true, inInit := false
    chipFreqHz := 915000000, chipPowerDbm := kMaxSafeBenchTxPowerDbm }

theorem beginFLRC_ok {io : InitInput} (hio : io.ok) (gpio : ℕ) (s : Settings) :
    Does (beginFLRC io) (s.starting gpio s.chipFreqHz) errNone
      { s.starting gpio 915000000 with chipPowerDbm := kMaxSafeBenchTxPowerDbm }
      [(s.starting gpio 915000000, kMaxSafeBenchTxPowerDbm)] := by
  obtain ⟨hcommon, hfreq, hcal, hpow⟩ := hio
  have htune := Does.setFrequency 915000000 errNone (s.starting gpio s.chipFreqHz)
  have hset := Does.setOutputPower kMaxSafeBenchTxPowerDbm errNone (s.starting gpio 915000000)
  unfold beginFLRC
  rw [hcommon, hfreq, hcal, hpow]
  refine (radioCall_does rfl _).bind_silent ?_
  refine Does.if_false (not_not.mpr rfl) (htune.bind_silent ?_)
  refine Does.if_false (not_not.mpr rfl) ((radioCall_does rfl _).bind_silent ?_)
  exact Does.if_false (not_not.mpr rfl) hset

/-- The frequency of the chip behind the stages of a start. -/
def InitInput.tuned (io : InitInput) (freqHz : UInt32) : UInt32 :=
  if io.common = errNone ∧ io.freqSt = errNone then 915000000 else freqHz

/-- A failed start stops at the first stage that reports an error. -/
theorem beginFLRC_failed {io : InitInput} (hio : ¬io.ok) (gpio : ℕ) (s : Settings) :
    ∃ st ws, st ≠ errNone ∧
      Does (beginFLRC io) (s.starting gpio s.chipFreqHz) st
        (s.starting gpio (io.tuned s.chipFreqHz)) ws ∧
      ∀ p ∈ ws, p = (s.starting gpio (io.tuned s.chipFreqHz), kMaxSafeBenchTxPowerDbm) := by
  unfold beginFLRC
  by_cases hcommon : io.common = errNone
  case neg =>
    rw [show io.tuned s.chipFreqHz = s.chipFreqHz from if_neg fun h ↦ hcommon h.1]
    refine ⟨io.common, [], hcommon, ?_, by simp⟩
    refine (radioCall_does rfl _).bind_silent ?_
    exact Does.if_true hcommon (Does.pure _ _)
  have htune := Does.setFrequency 915000000 io.freqSt (s.starting gpio s.chipFreqHz)
  by_cases hfreq : io.freqSt = errNone
  case neg =>
    rw [show io.tuned s.chipFreqHz = s.chipFreqHz from if_neg fun h ↦ hfreq h.2]
    refine ⟨io.freqSt, [], hfreq, ?_, by simp⟩
    rw [if_neg hfreq] at htune
    refine (radioCall_does rfl _).bind_silent ?_
    refine Does.if_false (not_not.mpr hcommon) (htune.bind_silent ?_)
    exact Does.if_true hfreq (Does.pure _ _)
  rw [if_pos hfreq] at htune
  rw [show io.tuned s.chipFreqHz = 915000000 from if_pos ⟨hcommon, hfreq⟩]
  by_cases hcal : io.calibrateSt = errNone
  case neg =>
    refine ⟨io.calibrateSt, [], hcal, ?_, by simp⟩
    refine (radioCall_does rfl _).bind_silent ?_
    refine Does.if_false (not_not.mpr hcommon) (htune.bind_silent ?_)
    refine Does.if_false (not_not.mpr hfreq) ((radioCall_does rfl _).bind_silent ?_)
    exact Does.if_true hcal (Does.pure _ _)
  have hpow : io.powerSt ≠ errNone := fun hpow ↦ hio ⟨hcommon, hfreq, hcal, hpow⟩
  have hset := Does.setOutputPower kMaxSafeBenchTxPowerDbm io.powerSt (s.starting gpio 915000000)
  rw [if_neg hpow] at hset
  refine ⟨io.powerSt, [(s.starting gpio 915000000, kMaxSafeBenchTxPowerDbm)],
    hpow, ?_, by simp⟩
  refine (radioCall_does rfl _).bind_silent ?_
  refine Does.if_false (not_not.mpr hcommon) (htune.bind_silent ?_)
  refine Does.if_false (not_not.mpr hfreq) ((radioCall_does rfl _).bind_silent ?_)
  exact Does.if_false (not_not.mpr hcal) hset

theorem init_ok {io : InitInput} (hio : io.ok) (gpio : ℕ) (s : Settings) :
    Does (init gpio io) s true (s.started gpio)
      [(s.starting gpio 915000000, kMaxSafeBenchTxPowerDbm)] := by
  refine Does.update (fun s ↦ { s with powerGpio := gpio, inInit := true }) rfl ?_
  refine (issue_does rfl _).bind_silent ((issue_does rfl _).bind_silent ?_)
  refine (beginFLRC_ok hio gpio s).bind (Does.if_false (not_not.mpr rfl) ?_)
  refine (radioCall_does rfl _).bind_silent ?_
  refine Does.update (fun s ↦ { s with radioOk := true }) rfl (Does.then_keeps .armReceive ?_)
  exact Does.update (fun s ↦ { s with inInit := false }) rfl (Does.pure _ _)

/-- A failed `init` may have retuned the chip; it leaves its power alone. -/
theorem init_failed {io : InitInput} (hio : ¬io.ok) (gpio : ℕ) (s : Settings) :
    ∃ ws,
      Does (init gpio io) s false
        { s.starting gpio (io.tuned s.chipFreqHz) with inInit := false } ws ∧
      ∀ p ∈ ws, p = (s.starting gpio (io.tuned s.chipFreqHz), kMaxSafeBenchTxPowerDbm) := by
  obtain ⟨st, ws, hst, hbegin, hws⟩ := beginFLRC_failed hio gpio s
  refine ⟨ws, ?_, hws⟩
  refine Does.update (fun s ↦ { s with powerGpio := gpio, inInit := true }) rfl ?_
  refine (issue_does rfl _).bind_silent ((issue_does rfl _).bind_silent ?_)
  rw [← List.append_nil ws]
  refine hbegin.bind (Does.if_true hst ?_)
  exact Does.update (fun s ↦ { s with inInit := false }) rfl (Does.pure _ _)

/-! ## Reading the level -/

/-- The level a reading gives, on top of the current one. -/
def levelRead (level : Int) (r : ThermalReading) : Option Int :=
  match r.file.filter (·.fresh r.nowSec) with
  | some f => some f.lvl
  | none => (r.sensor.filter validTemp).map (sensorLevel level)

def nextLevel (s : Settings) (now : UInt32) (r : ThermalReading) : Int :=
  if thermalDue s now then (levelRead s.thermalLevel r).getD s.thermalLevel else s.thermalLevel

/-- The settings without those that reading a level changes. -/
def Settings.noSensor (s : Settings) : Settings :=
  { s with lastThermalCheckMs := 0, fanOn := false, pmInitialized := false, cpuDvfsStage := 0 }

def RadioWorker.noSensor (w : RadioWorker) : RadioWorker :=
  { w with toSettings := w.toSettings.noSensor }

/-- Effects on the board, not on the radio. -/
def Effect.board : Effect → Bool
  | .powerSet _ _ | .setCpuStage _ => true
  | _ => false

/-- `m` does nothing beyond sensors, fan and processor stage. -/
abbrev SensorOnly {α : Type} (m : Work α) : Prop :=
  Frame RadioWorker.noSensor (fun _ e ↦ e.board = true) m

theorem sensorTick_sensorOnly (t : ℚ) : SensorOnly (sensorTick t) := by
  refine Frame.read.bind fun w ↦ ?_
  have hrest : SensorOnly (do
      update fun w ↦ { w with
        fanOn := nextFan w.fanOn t, cpuDvfsStage := nextDvfs w.cpuDvfsStage t }
      return sensorLevel w.thermalLevel t) :=
    Frame.bind (Frame.update fun _ ↦ rfl) fun _ ↦ Frame.pure _
  have hdvfs : SensorOnly (do
      if nextDvfs w.cpuDvfsStage t ≠ w.cpuDvfsStage then
        issue (.setCpuStage (nextDvfs w.cpuDvfsStage t))
      update fun w ↦ { w with
        fanOn := nextFan w.fanOn t, cpuDvfsStage := nextDvfs w.cpuDvfsStage t }
      return sensorLevel w.thermalLevel t) :=
    Frame.ite (Frame.bind (Frame.issue fun _ ↦ rfl) fun _ ↦ hrest) hrest
  exact Frame.ite (Frame.bind (Frame.issue fun _ ↦ rfl) fun _ ↦ hdvfs) hdvfs

theorem initPm_sensorOnly : SensorOnly initPm :=
  Frame.read.bind fun _ ↦ Frame.ite
    (Frame.bind (Frame.issue fun _ ↦ rfl) fun _ ↦ Frame.update fun _ ↦ rfl) (Frame.pure _)

theorem readLevel_sensorOnly (r : ThermalReading) : SensorOnly (readLevel r) := by
  unfold readLevel
  split
  · exact Frame.pure _
  · refine initPm_sensorOnly.bind fun _ ↦ ?_
    split
    · exact Frame.pure _
    · exact (sensorTick_sensorOnly _).bind fun _ ↦ Frame.pure _

theorem sensorTick_val (t : ℚ) (w : RadioWorker) :
    ((sensorTick t).run w).val = sensorLevel w.thermalLevel t := by
  by_cases hfan : nextFan w.fanOn t = w.fanOn <;>
    by_cases hdvfs : nextDvfs w.cpuDvfsStage t = w.cpuDvfsStage <;>
      simp [sensorTick, hfan, hdvfs]

theorem readLevel_val (r : ThermalReading) (w : RadioWorker) :
    ((readLevel r).run w).val = levelRead w.thermalLevel r := by
  have hpm : (initPm.run w).state.thermalLevel = w.thermalLevel :=
    congrArg (·.thermalLevel) (initPm_sensorOnly w).1
  unfold readLevel levelRead
  cases r.file.filter (·.fresh r.nowSec) with
  | some f => rfl
  | none =>
      cases r.sensor.filter validTemp with
      | none => simp
      | some t => simp [sensorTick_val, hpm]

/-- A tick reads a level and enters it where it differs from the current one. -/
theorem thermalTick_run (now : UInt32) (io : ThermalInput) (w : RadioWorker) :
    ∃ w' l, w'.noSensor = w.noSensor ∧
      (∀ p ∈ l, p.1.noSensor = w.noSensor ∧ p.2.board = true) ∧
      (thermalTick now io).run w =
        if nextLevel w.toSettings now io.reading = w.thermalLevel then ⟨(), w', l⟩
        else ((enterLevel w.thermalLevel (nextLevel w.toSettings now io.reading) io).run
          w').prepend l := by
  by_cases hdue : thermalDue w.toSettings now = true
  case neg =>
    refine ⟨w, [], rfl, by simp, ?_⟩
    simp [thermalTick, nextLevel, hdue]
  let w₀ : RadioWorker := { w with lastThermalCheckMs := now }
  obtain ⟨hstate, hlog⟩ := readLevel_sensorOnly io.reading w₀
  have hval : ((readLevel io.reading).run w₀).val = levelRead w.thermalLevel io.reading :=
    readLevel_val io.reading w₀
  have hlevel : ((readLevel io.reading).run w₀).state.thermalLevel = w.thermalLevel :=
    congrArg (·.thermalLevel) hstate
  refine ⟨((readLevel io.reading).run w₀).state, ((readLevel io.reading).run w₀).log, hstate,
    hlog, ?_⟩
  have hnext : nextLevel w.toSettings now io.reading =
      (levelRead w.thermalLevel io.reading).getD w.thermalLevel := by
    simp [nextLevel, hdue]
  rw [hnext]
  have htick : (thermalTick now io).run w =
      ((takeLevel ((readLevel io.reading).run w₀).val io).run
        ((readLevel io.reading).run w₀).state).prepend ((readLevel io.reading).run w₀).log := by
    simp [thermalTick, hdue, w₀]
  rw [htick, hval]
  cases levelRead w.thermalLevel io.reading with
  | none => simp [takeLevel]
  | some level =>
      by_cases hsame : level = w.thermalLevel <;> simp [takeLevel, hlevel, hsame]

/-! ## Entering a level -/

/-- The drain of a cutoff empties the queue and reports its frames. -/
theorem drain_frame {τ : Type} {f : RadioWorker → τ} {ok : τ → Effect → Prop}
    (hf : ∀ w, f { w with txQ := [], st := { w.st with pendingTxValid := 0 } } = f w)
    (hok : ∀ frame t, ok t (.onTxTerminal frame .kDropped)) :
    Frame f ok (drainTxQ >>= reportDropped) := by
  refine Frame.bind (Frame.read.bind fun w ↦ (Frame.update hf).bind fun _ ↦ Frame.pure w.txQ)
    fun frames ↦ Frame.issueAll fun e he t ↦ ?_
  obtain ⟨frame, -, rfl⟩ := List.mem_map.mp he
  exact hok frame t

theorem drain_keeps : KeepsSettings (do
    let frames ← drainTxQ
    reportDropped frames) := drain_frame (fun _ ↦ rfl) fun _ _ ↦ rfl

theorem enterLevel_cutoff (prev : Int) (io : ThermalInput) (s : Settings) :
    Does (enterLevel prev 2 io) s ()
      { s with thermalLevel := 2, thermalPoweredDown := true } [] := by
  have hcut : Does cutPower { s with thermalLevel := 2 } ()
      { s with thermalLevel := 2, thermalPoweredDown := true } [] := by
    refine Does.read fun w hw ↦ ?_
    have hoff : Does (do
        issue (.powerSet 42 true)
        issue (.powerSet w.powerGpio false)
        update fun w ↦ { w with thermalPoweredDown := true } : Work Unit)
        { s with thermalLevel := 2 } ()
        { s with thermalLevel := 2, thermalPoweredDown := true } [] := by
      refine (issue_does rfl _).bind_silent ((issue_does rfl _).bind_silent ?_)
      rintro w hw
      simp [hw]
    dsimp only
    split
    · exact Does.then_keeps .standby hoff
    · exact hoff
  refine Does.update (fun s ↦ { s with thermalLevel := 2 }) rfl (Does.if_true rfl ?_)
  exact hcut.bind_silent (Does.keeps drain_keeps _)

/-- Throttling writes its power only to a radio that is up. -/
theorem throttle_on {s : Settings} (io : ThermalInput) (hok : s.radioOk = true)
    (hup : s.thermalPoweredDown = false) :
    Does (throttle io) s ()
      (if io.powerSt = errNone then { s with chipPowerDbm := kThrottledTxPowerDbm } else s)
      [(s, kThrottledTxPowerDbm)] := by
  refine Does.read fun w hw ↦ ?_
  rw [← hw] at hok hup
  refine Does.if_true (by simp [hok, hup]) (Does.then_keeps .standby ?_)
  exact (Does.setOutputPower kThrottledTxPowerDbm io.powerSt s).discard.bind
    (Does.keeps .armReceive _)

theorem throttle_off {s : Settings} (io : ThermalInput)
    (h : s.radioOk = false ∨ s.thermalPoweredDown = true) : Does (throttle io) s () s [] := by
  refine Does.read fun w hw ↦ ?_
  rw [← hw] at h
  refine Does.if_false ?_ (Does.pure _ _)
  rcases h with h | h <;> simp [h]

theorem enterLevel_throttle {s s' : Settings} {ws : List (Settings × Int8)} (prev : Int)
    {io : ThermalInput} (h : Does (throttle io) { s with thermalLevel := 1 } () s' ws) :
    Does (enterLevel prev 1 io) s () s' ws :=
  Does.update (fun s ↦ { s with thermalLevel := 1 }) rfl
    (Does.if_false (by decide) (Does.if_true rfl h))

theorem enterLevel_recover {s s' : Settings} {ws : List (Settings × Int8)} (prev : Int)
    {io : ThermalInput} (h : Does (recover prev io) { s with thermalLevel := 0 } () s' ws) :
    Does (enterLevel prev 0 io) s () s' ws :=
  Does.update (fun s ↦ { s with thermalLevel := 0 }) rfl
    (Does.if_false (by decide) (Does.if_false (by decide) (Does.if_true rfl h)))

/-- Any other level is only noted. -/
theorem enterLevel_other (prev : Int) {level : Int} (io : ThermalInput) (s : Settings)
    (h : level ≠ 0 ∧ level ≠ 1 ∧ level ≠ 2) :
    Does (enterLevel prev level io) s () { s with thermalLevel := level } [] := by
  obtain ⟨h0, h1, h2⟩ := h
  refine Does.update (fun s ↦ { s with thermalLevel := level }) rfl ?_
  refine Does.if_false (by simpa using h2) (Does.if_false (by simpa using h1) ?_)
  exact Does.if_false (by simpa using h0) (Does.pure _ _)

/-- Recovery from throttling writes the stored power. -/
theorem recover_restore {s : Settings} (io : ThermalInput)
    (hup : s.thermalPoweredDown = false) (hok : s.radioOk = true) :
    Does (recover 1 io) s ()
      (if io.powerSt = errNone then { s with chipPowerDbm := s.cfg.txPowerDbm } else s)
      [(s, s.cfg.txPowerDbm)] := by
  refine Does.read fun w hw ↦ ?_
  rw [← hw] at hok hup
  refine Does.if_false (by simp [hup]) (Does.if_true (by simp [hok]) ?_)
  refine Does.then_keeps .standby ?_
  rw [← hw]
  exact (Does.setOutputPower w.cfg.txPowerDbm io.powerSt w.toSettings).discard.bind
    (Does.keeps .armReceive _)

theorem recover_idle {s : Settings} {prev : Int} (io : ThermalInput)
    (hup : s.thermalPoweredDown = false) (h : prev ≠ 1 ∨ s.radioOk = false) :
    Does (recover prev io) s () s [] := by
  refine Does.read fun w hw ↦ ?_
  rw [← hw] at hup h
  refine Does.if_false (by simp [hup]) (Does.if_false ?_ (Does.pure _ _))
  rcases h with h | h <;> simp [h]

/-- Recovery from a cutoff that cannot start the radio. -/
theorem recover_failed {s : Settings} (prev : Int) {io : ThermalInput}
    (hdown : s.thermalPoweredDown = true) (hio : ¬io.init.ok) :
    ∃ ws,
      Does (recover prev io) s ()
        { s.starting s.powerGpio (io.init.tuned s.chipFreqHz) with inInit := false } ws ∧
      ∀ p ∈ ws, p = (s.starting s.powerGpio (io.init.tuned s.chipFreqHz),
        kMaxSafeBenchTxPowerDbm) := by
  obtain ⟨ws, hinit, hws⟩ := init_failed hio s.powerGpio s
  refine ⟨ws, Does.read fun w hw ↦ ?_, hws⟩
  rw [← hw] at hdown
  refine Does.if_true hdown (Does.read fun w hw ↦ ?_)
  rw [show w.powerGpio = s.powerGpio by rw [← hw], ← List.append_nil ws]
  exact hinit.bind (Does.if_false (by simp) (Does.pure _ _))

/-- Recovery from a cutoff: `init`, then the CONFIG of before. -/
theorem recover_started {s s' : Settings} {ws : List (Settings × Int8)} (prev : Int)
    {io : ThermalInput} {v : Except String Unit} (hdown : s.thermalPoweredDown = true)
    (hio : io.init.ok)
    (hconfig : Does (applyConfig s.cfg io.config)
      { s.started s.powerGpio with thermalPoweredDown := false } v s' ws) :
    Does (recover prev io) s () s'
      ((s.starting s.powerGpio 915000000, kMaxSafeBenchTxPowerDbm) :: ws) := by
  refine Does.read fun w hw ↦ ?_
  rw [← hw] at hdown
  refine Does.if_true hdown (Does.read fun w hw ↦ ?_)
  rw [show w.powerGpio = s.powerGpio by rw [← hw], show w.cfg = s.cfg by rw [← hw]]
  rw [← List.singleton_append]
  refine (init_ok hio s.powerGpio s).bind (Does.if_true rfl ?_)
  exact Does.update (fun s ↦ { s with thermalPoweredDown := false }) rfl hconfig.discard

/-- The ways to enter a level, from the level `prev`. -/
inductive Enters (io : ThermalInput) (prev : Int) (s : Settings) :
    Int → Settings → List (Settings × Int8) → Prop
  | cutoff : Enters io prev s 2 { s with thermalLevel := 2, thermalPoweredDown := true } []
  | throttled (hok : s.radioOk = true) (hup : s.thermalPoweredDown = false) :
      Enters io prev s 1
        (if io.powerSt = errNone then
          { s with thermalLevel := 1, chipPowerDbm := kThrottledTxPowerDbm }
        else { s with thermalLevel := 1 })
        [({ s with thermalLevel := 1 }, kThrottledTxPowerDbm)]
  | unthrottled (h : s.radioOk = false ∨ s.thermalPoweredDown = true) :
      Enters io prev s 1 { s with thermalLevel := 1 } []
  | restored (hprev : prev = 1) (hok : s.radioOk = true)
      (hup : s.thermalPoweredDown = false) :
      Enters io prev s 0
        (if io.powerSt = errNone then
          { s with thermalLevel := 0, chipPowerDbm := s.cfg.txPowerDbm }
        else { s with thermalLevel := 0 })
        [({ s with thermalLevel := 0 }, s.cfg.txPowerDbm)]
  | idle (hup : s.thermalPoweredDown = false) (h : prev ≠ 1 ∨ s.radioOk = false) :
      Enters io prev s 0 { s with thermalLevel := 0 } []
  | failed {freqHz : UInt32} {ws : List (Settings × Int8)}
      (hdown : s.thermalPoweredDown = true) (hio : ¬io.init.ok)
      (hws : ∀ p ∈ ws, p = ({ s with thermalLevel := 0 }.starting s.powerGpio freqHz,
        kMaxSafeBenchTxPowerDbm)) :
      Enters io prev s 0
        { { s with thermalLevel := 0 }.starting s.powerGpio freqHz with inInit := false } ws
  | started {v : Except String Unit} {s' : Settings} {ws : List (Settings × Int8)}
      (hdown : s.thermalPoweredDown = true) (hio : io.init.ok)
      (hconfig : Configures s.cfg io.config
        { { s with thermalLevel := 0 }.started s.powerGpio with thermalPoweredDown := false }
        v s' ws) :
      Enters io prev s 0 s'
        (({ s with thermalLevel := 0 }.starting s.powerGpio 915000000,
          kMaxSafeBenchTxPowerDbm) :: ws)
  | other {level : Int} (h : level ≠ 0 ∧ level ≠ 1 ∧ level ≠ 2) :
      Enters io prev s level { s with thermalLevel := level } []

theorem enterLevel_cases (io : ThermalInput) (prev level : Int) (s : Settings) :
    ∃ s' ws, Enters io prev s level s' ws ∧ Does (enterLevel prev level io) s () s' ws := by
  by_cases h2 : level = 2
  · subst h2
    exact ⟨_, _, .cutoff, enterLevel_cutoff prev io s⟩
  by_cases h1 : level = 1
  · subst h1
    by_cases h : s.radioOk = true ∧ s.thermalPoweredDown = false
    · exact ⟨_, _, .throttled h.1 h.2, enterLevel_throttle prev (throttle_on io h.1 h.2)⟩
    · have h' : s.radioOk = false ∨ s.thermalPoweredDown = true := by
        rwa [not_and_or, Bool.not_eq_true, Bool.not_eq_false] at h
      exact ⟨_, _, .unthrottled h', enterLevel_throttle prev (throttle_off io h')⟩
  by_cases h0 : level = 0
  case neg => exact ⟨_, _, .other ⟨h0, h1, h2⟩, enterLevel_other prev io s ⟨h0, h1, h2⟩⟩
  subst h0
  cases hdown : s.thermalPoweredDown
  · by_cases h : prev = 1 ∧ s.radioOk = true
    · obtain ⟨rfl, hok⟩ := h
      exact ⟨_, _, .restored rfl hok hdown, enterLevel_recover 1 (recover_restore io hdown hok)⟩
    · have h' : prev ≠ 1 ∨ s.radioOk = false := by
        rwa [not_and_or, Bool.not_eq_true] at h
      exact ⟨_, _, .idle hdown h', enterLevel_recover prev (recover_idle io hdown h')⟩
  by_cases hio : io.init.ok
  · obtain ⟨v, s', ws, hcases, hconfig⟩ := applyConfig_cases s.cfg io.config
      { { s with thermalLevel := 0 }.started s.powerGpio with thermalPoweredDown := false }
    exact ⟨_, _, .started hdown hio hcases,
      enterLevel_recover prev (recover_started (s := { s with thermalLevel := 0 }) prev hdown
        hio hconfig)⟩
  · obtain ⟨ws, hrun, hws⟩ :=
      recover_failed (s := { s with thermalLevel := 0 }) prev hdown hio
    exact ⟨_, _, .failed hdown hio hws, enterLevel_recover prev hrun⟩

end RadioService
