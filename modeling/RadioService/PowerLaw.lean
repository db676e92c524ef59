import RadioService.PowerCap

/-!
# The effective power

The host expects the chip on the power of its last acknowledged CONFIG, capped
by the thermal level.  The worker keeps one power in `cfg`, already clamped by
the level at which the CONFIG came, and throttles to a fixed power.
-/

namespace RadioService

open Burst Traced Machine

/-! ## The acknowledged request -/

/-- The worker together with the power of the last acknowledged CONFIG. -/
abbrev Requested := RadioWorker × Int8

def acknowledged (w : RadioWorker) (cfg : Config) (io : ConfigInput) : Bool :=
  ((applyConfig cfg io).run w).val.isOk

def nextRequest (s : Requested) : Call → Int8
  | .applyConfig cfg io => if acknowledged s.1 cfg io then cfg.txPowerDbm else s.2
  | _ => s.2

def requestStep : Step Requested Call (RadioWorker × Effect) := fun s c ↦
  (((workerStep s.1 c).1, nextRequest s c), (workerStep s.1 c).2)

/-- The requests the law is about. -/
def Requestable (r : Int8) : Prop := -9 ≤ r.toInt ∧ r.toInt ≤ 22

/-- The chip is on the request, capped by the level. -/
def PowerLaw (s : Requested) : Prop :=
  Requestable s.2 →
    s.1.chipPowerDbm.toInt = min s.2.toInt (maxPower s.1.thermalLevel).toInt

/-- A step without a cutoff on which `setOutputPower` succeeds. -/
def PoweredStep (s : Requested) : Call → Prop
  | .applyConfig _ io => io.powerSt = errNone
  | .pollOnce io => io.thermal.powerSt = errNone ∧
      (nextLevel s.1.toSettings io.nowMs io.thermal.reading = 0 ∨
        nextLevel s.1.toSettings io.nowMs io.thermal.reading = 1)
  | _ => True

/-- A radio that is up acknowledges a CONFIG that asks for nothing new or whose
retune succeeds. -/
def Acknowledges (s : Settings) (cfg : Config) (io : ConfigInput) : Prop :=
  configUnchanged s (clampConfig s.thermalLevel cfg) = true ∨
    (cfg.frequencyHz > 0 → io.freqSt = errNone)

/-- Where the law is kept: an acknowledged CONFIG for the stored power finds it
on the chip, throttling finds no request below its power, and recovery finds
the request in `cfg`. -/
def RequestHeld (s : Requested) : Call → Prop
  | .applyConfig cfg io => Acknowledges s.1.toSettings cfg io → Requestable cfg.txPowerDbm →
      (clampConfig s.1.thermalLevel cfg).txPowerDbm = s.1.cfg.txPowerDbm →
      s.1.chipPowerDbm = s.1.cfg.txPowerDbm
  | .pollOnce io => Requestable s.2 →
      (s.1.thermalLevel = 0 → nextLevel s.1.toSettings io.nowMs io.thermal.reading = 1 →
        4 ≤ s.2.toInt) ∧
      (s.1.thermalLevel = 1 → nextLevel s.1.toSettings io.nowMs io.thermal.reading = 0 →
        s.1.cfg.txPowerDbm.toInt = min s.2.toInt 10)
  | _ => True

/-- A radio that is up, at level 0 or 1. -/
structure Powered (s : Settings) : Prop where
  ok : s.radioOk = true
  up : s.thermalPoweredDown = false
  level : s.thermalLevel = 0 ∨ s.thermalLevel = 1

/-! ## Steps -/

theorem configures_isOk_iff {s s' : Settings} {cfg : Config} {io : ConfigInput}
    {v : Except String Unit} {ws : List (Settings × Int8)} (h : Configures cfg io s v s' ws)
    (hok : s.radioOk = true) : v.isOk = true ↔ Acknowledges s cfg io := by
  cases h with
  | refused hdown => exact absurd (hok.symm.trans hdown) (by decide)
  | unchanged _ hsame => exact iff_of_true rfl (.inl hsame)
  | failed _ hnew hfreq hst =>
      refine iff_of_false (by decide) ?_
      rintro (hsame | hst')
      · exact absurd (hsame.symm.trans hnew) (by decide)
      · exact hst (hst' hfreq)
  | applied _ hnew hst => exact iff_of_true rfl (.inr hst)

theorem configures_power {s s' : Settings} {cfg : Config} {io : ConfigInput}
    {v : Except String Unit} {ws : List (Settings × Int8)} (h : Configures cfg io s v s' ws)
    (hpow : io.powerSt = errNone) :
    s'.radioOk = s.radioOk ∧ s'.thermalPoweredDown = s.thermalPoweredDown ∧
      s'.thermalLevel = s.thermalLevel ∧
      s'.chipPowerDbm =
        if v.isOk = true ∧
            (clampConfig s.thermalLevel cfg).txPowerDbm ≠ s.cfg.txPowerDbm then
          (clampConfig s.thermalLevel cfg).txPowerDbm
        else s.chipPowerDbm := by
  cases h with
  | refused hok => exact ⟨rfl, rfl, rfl, rfl⟩
  | unchanged hok hsame =>
      refine ⟨rfl, rfl, rfl, (if_neg ?_).symm⟩
      rintro ⟨-, hne⟩
      exact hne (congrArg Config.txPowerDbm (configUnchanged_iff.mp hsame).2)
  | failed hok hnew hfreq hst => exact ⟨rfl, rfl, rfl, rfl⟩
  | applied hok hnew hst =>
      refine ⟨rfl, rfl, rfl, ?_⟩
      simp [Settings.configured, hpow, Except.isOk, Except.toBool]

/-- A step to the settings `s'`: still powered, and the law comes down to `Q`. -/
theorem powered_step {w : RadioWorker} {r : Int8} {s' : Settings} {Q : Prop}
    (hw : w.toSettings = s') (hs' : Powered s')
    (hlaw : (Requestable r →
      s'.chipPowerDbm.toInt = min r.toInt (maxPower s'.thermalLevel).toInt) ↔ Q) :
    Powered w.toSettings ∧ (PowerLaw (w, r) ↔ Q) := by
  subst hw
  exact ⟨hs', hlaw⟩

/-- The settings that the law looks at. -/
def Settings.power (s : Settings) : Bool × Bool × Int × Int8 :=
  (s.radioOk, s.thermalPoweredDown, s.thermalLevel, s.chipPowerDbm)

theorem power_eq_iff {s s' : Settings} : s'.power = s.power ↔
    s'.radioOk = s.radioOk ∧ s'.thermalPoweredDown = s.thermalPoweredDown ∧
      s'.thermalLevel = s.thermalLevel ∧ s'.chipPowerDbm = s.chipPowerDbm := by
  simp [Settings.power]

/-- Settings that look the same to the law keep it. -/
theorem same_power_step {w : RadioWorker} {s : Requested} {Q : Prop}
    (hs : Powered s.1.toSettings) (hlaw : PowerLaw s)
    (hview : w.toSettings.power = s.1.toSettings.power) (hQ : Q) :
    Powered w.toSettings ∧ (PowerLaw (w, s.2) ↔ Q) := by
  obtain ⟨hok, hup, hlev, hchip⟩ := power_eq_iff.mp hview
  refine powered_step rfl ⟨hok.trans hs.ok, hup.trans hs.up, hlev ▸ hs.level⟩
    (iff_of_true (fun hr ↦ ?_) hQ)
  rw [hchip, hlev]
  exact hlaw hr

/-- A CONFIG on a worker that keeps the law leaves it exactly if the request is
held. -/
theorem config_law_iff {s : Requested} (hs : Powered s.1.toSettings) (hlaw : PowerLaw s)
    (cfg : Config) {io : ConfigInput} (hpow : io.powerSt = errNone) :
    Powered (requestStep s (.applyConfig cfg io)).1.1.toSettings ∧
      (PowerLaw (requestStep s (.applyConfig cfg io)).1 ↔
        RequestHeld s (.applyConfig cfg io)) := by
  obtain ⟨v, s', ws, hcases, hdoes⟩ := applyConfig_cases cfg io s.1.toSettings
  obtain ⟨hval, hstate, -⟩ := hdoes s.1 rfl
  obtain ⟨hok, hup, hlevel, hchip⟩ := configures_power hcases hpow
  have hw : (workerStep s.1 (.applyConfig cfg io)).1.toSettings = s' := by
    change ((discard (applyConfig cfg io)).run s.1).state.toSettings = s'
    rw [run_discard, hstate]
  have hack : acknowledged s.1 cfg io = v.isOk := congrArg Except.isOk hval
  refine powered_step hw ⟨hok.trans hs.ok, hup.trans hs.up, hlevel ▸ hs.level⟩ ?_
  have hack_iff := configures_isOk_iff hcases hs.ok
  simp only [nextRequest, RequestHeld, hack, hchip, hlevel, ← hack_iff]
  cases v.isOk with
  | false => exact iff_of_true (fun hr ↦ by simpa using hlaw hr) (by simp)
  | true =>
      have hclamp := clampConfig_power s.1.thermalLevel cfg
      simp only [true_and, true_implies, if_true, ← hclamp]
      refine imp_congr_right fun _ ↦ ?_
      by_cases hsame : (clampConfig s.1.thermalLevel cfg).txPowerDbm = s.1.cfg.txPowerDbm
      · simp only [hsame, ne_eq, not_true_eq_false, if_false, true_implies]
        exact Int8.toInt_inj
      · simp [hsame]

/-- A change of level between 0 and 1 throttles or restores the stored power. -/
theorem enters_power {s s' : Settings} {io : ThermalInput} {prev level : Int}
    {ws : List (Settings × Int8)} (h : Enters io prev s level s' ws)
    (hpow : io.powerSt = errNone) (hok : s.radioOk = true)
    (hup : s.thermalPoweredDown = false) (hprev : prev = 0 ∨ prev = 1) (hne : level ≠ prev)
    (hlevel : level = 0 ∨ level = 1) :
    s'.power = (true, false, level,
      if level = 1 then kThrottledTxPowerDbm else s.cfg.txPowerDbm) := by
  cases h with
  | cutoff => omega
  | throttled _ _ => simp [Settings.power, hpow, hok, hup]
  | unthrottled h => simp [hok, hup] at h
  | restored _ _ _ => simp [Settings.power, hpow, hok, hup]
  | idle _ h =>
      rcases h with h | h
      · omega
      · simp [hok] at h
  | failed hdown _ _ => simp [hup] at hdown
  | started hdown _ _ => simp [hup] at hdown
  | other h => omega

theorem poll_law_iff {s : Requested} (hs : Powered s.1.toSettings) (hlaw : PowerLaw s)
    {io : PollInput} (hstep : PoweredStep s (.pollOnce io)) :
    Powered (requestStep s (.pollOnce io)).1.1.toSettings ∧
      (PowerLaw (requestStep s (.pollOnce io)).1 ↔ RequestHeld s (.pollOnce io)) := by
  obtain ⟨hpow, hnext⟩ := hstep
  have hlevel := hs.level
  have hdoes := workerStep_does s.1 (.pollOnce io)
  generalize hw : (workerStep s.1 (.pollOnce io)).1.toSettings = s' at hdoes
  generalize powerWrites (workerStep s.1 (.pollOnce io)).2 = ws at hdoes
  cases hdoes with
  | @stay _ s₁ _ h₁ hstay h' =>
      have hview : s'.power = s.1.toSettings.power :=
        (congrArg Settings.power h' :).trans (congrArg Settings.power h₁ :)
      refine same_power_step hs hlaw (hw ▸ hview) fun _ ↦ ?_
      constructor <;> intro _ _ <;> omega
  | @enter _ s₁ s₂ _ _ h₁ hmove h₂ h' =>
      have hread : s₁.power = s.1.toSettings.power := (congrArg Settings.power h₁ :)
      have hrest : s'.power = s₂.power := (congrArg Settings.power h' :)
      obtain ⟨hok₁, hup₁, -, -⟩ := power_eq_iff.mp hread
      have hstored := power_of_noSensor h₁
      have hview := hrest.trans
        (enters_power h₂ hpow (hok₁.trans hs.ok) (hup₁.trans hs.up) hs.level hmove hnext)
      simp only [RequestHeld]
      generalize nextLevel s.1.toSettings io.nowMs io.thermal.reading = next at *
      simp only [Settings.power, Prod.mk.injEq] at hview
      obtain ⟨hok, hup, hlev, hchip⟩ := hview
      refine powered_step hw ⟨hok, hup, hlev ▸ hnext⟩ (imp_congr_right fun _ ↦ ?_)
      rw [hchip, hlev, hstored]
      rcases hnext with rfl | rfl
      · have hone : s.1.thermalLevel = 1 := by omega
        have hcap : (maxPower 0).toInt = 10 := rfl
        simp only [nextRequest, hone, hcap, true_implies, zero_ne_one, if_false, one_ne_zero,
          false_implies, implies_true, true_and]
      · have hzero : s.1.thermalLevel = 0 := by omega
        have hcap : kThrottledTxPowerDbm.toInt = min s.2.toInt (maxPower 1).toInt ↔
            4 ≤ s.2.toInt := eq_comm.trans min_eq_right_iff
        simpa [nextRequest, hzero] using hcap

theorem step_law_iff {s : Requested} (hs : Powered s.1.toSettings) (hlaw : PowerLaw s)
    {c : Call} (hstep : PoweredStep s c) :
    Powered (requestStep s c).1.1.toSettings ∧
      (PowerLaw (requestStep s c).1 ↔ RequestHeld s c) := by
  cases c with
  | applyConfig cfg io => exact config_law_iff hs hlaw cfg hstep
  | pollOnce io => exact poll_law_iff hs hlaw hstep
  | startScan p now freqSt =>
      refine same_power_step hs hlaw ?_ trivial
      exact (congrArg Settings.power ((Scans.startScan p now freqSt).scanOnly s.1).1 :)
  | enqueueTx frame =>
      refine same_power_step hs hlaw ?_ trivial
      exact (congrArg Settings.power ((KeepsSettings.enqueueTx frame).discard s.1).1 :)

/-! ## Runs -/

theorem booted_powered : Powered booted.state.toSettings := by
  rw [booted_settings.2]
  exact ⟨rfl, rfl, .inl rfl⟩

theorem booted_powerLaw : PowerLaw (booted.state, 10) := by
  intro _
  decide

/-- In a run without a cutoff, on which `setOutputPower` succeeds, every state
behind a step keeps the law exactly if every step holds the request. -/
theorem power_law_iff (calls : List Call)
    (hpowered : Along requestStep PoweredStep (booted.state, 10) calls) :
    Along requestStep (fun s c ↦ PowerLaw (requestStep s c).1) (booted.state, 10) calls ↔
      Along requestStep RequestHeld (booted.state, 10) calls := by
  refine Along.congr_under (I := fun s ↦ Powered s.1.toSettings ∧ PowerLaw s) ?_ ?_
    ⟨booted_powered, booted_powerLaw⟩ hpowered
  · rintro s c ⟨hs, hlaw⟩ hstep
    exact (step_law_iff hs hlaw hstep).2
  · rintro s c ⟨hs, hlaw⟩ hstep hheld
    obtain ⟨hpow, hiff⟩ := step_law_iff hs hlaw hstep
    exact ⟨hpow, hiff.mpr hheld⟩

/-- The law along a CONFIG and two polls. -/
theorem power_law_config :
    let calls := [.applyConfig { txPowerDbm := 8 } {}, .pollOnce (pollAt 4000 0),
      .pollOnce (pollAt 8000 1)]
    Along requestStep (fun s c ↦ PowerLaw (requestStep s c).1) (booted.state, 10) calls ↔
      Along requestStep RequestHeld (booted.state, 10) calls :=
  power_law_iff _ ⟨rfl, ⟨rfl, .inl (by decide)⟩, ⟨rfl, .inr (by decide)⟩, trivial⟩

/-- Throttling raises an output of -5 dBm to 4, and a request of 10 dBm made
while throttled is not met by recovery. -/
theorem power_law_fails :
    let throttled := (run requestStep (booted.state, 10)
      [.applyConfig { txPowerDbm := -5 } {}, .pollOnce (pollAt 4000 1)]).1
    let recovered := (run requestStep (booted.state, 10)
      [.pollOnce (pollAt 4000 1), .applyConfig { txPowerDbm := 10 } {},
        .pollOnce (pollAt 8000 0)]).1
    (throttled.2 = -5 ∧ throttled.1.thermalLevel = 1 ∧ throttled.1.chipPowerDbm = 4 ∧
      ¬PowerLaw throttled) ∧
    (recovered.2 = 10 ∧ recovered.1.thermalLevel = 0 ∧ recovered.1.chipPowerDbm = 4 ∧
      ¬PowerLaw recovered) := by
  refine ⟨⟨by decide, by decide, by decide, fun h ↦ ?_⟩,
    ⟨by decide, by decide, by decide, fun h ↦ ?_⟩⟩
  · exact absurd (h ⟨by decide, by decide⟩) (by decide)
  · exact absurd (h ⟨by decide, by decide⟩) (by decide)

end RadioService
