import RadioService.WorkerRun

/-!
# The power cap

The driver doubles a power in eight bits, so that a power below -64 dBm comes
out large and positive.  `applyConfig` bounds the requested power from above
only.  The cap is therefore kept exactly as long as no such power reaches the
chip, from a CONFIG or from the stored configuration that recovery restores.
-/

namespace RadioService

open Burst Traced Machine

/-- The powers up to `cap` whose double keeps below twice the cap in eight
bits. -/
def InRange (cap p : Int8) : Prop := -64 ≤ p.toInt ∨ p.toInt ≤ cap.toInt - 128

instance (cap p : Int8) : Decidable (InRange cap p) := inferInstanceAs (Decidable (_ ∨ _))

theorem halfDbm_le_iff {cap p : Int8} (hcap : 0 ≤ cap.toInt ∧ cap.toInt ≤ 10)
    (hp : p.toInt ≤ cap.toInt) :
    (halfDbm p).toInt ≤ 2 * cap.toInt ↔ InRange cap p := by
  have hlo : -128 ≤ p.toInt := Int8.minValue_le_toInt p
  have hdouble : (halfDbm p).toInt = (p.toInt * 2).bmod 256 := Int8.toInt_mul p 2
  rw [hdouble, Int.bmod_def, InRange]
  split <;> omega

theorem maxPower_bounds (level : Int) :
    0 ≤ (maxPower level).toInt ∧ (maxPower level).toInt ≤ 10 := by
  unfold maxPower
  split <;> decide

/-- Clamping moves no power into or out of the range. -/
theorem inRange_clamp (level : Int) (cfg : Config) :
    InRange (maxPower level) (clampConfig level cfg).txPowerDbm ↔
      InRange (maxPower level) cfg.txPowerDbm := by
  have hmax := maxPower_bounds level
  rw [InRange, InRange, clampConfig_power]
  omega

/-! ## The cap along a run -/

/-- A power written to a radio that is up keeps below the cap of its level. -/
def Capped (p : Settings × Int8) : Prop :=
  p.1.thermalPoweredDown = false →
    (halfDbm p.2).toInt ≤ 2 * (maxPower p.1.thermalLevel).toInt

/-- A CONFIG that gets to the power register. -/
def ConfigWrites (s : Settings) (cfg : Config) (io : ConfigInput) : Prop :=
  s.radioOk = true ∧ (cfg.frequencyHz > 0 → io.freqSt = errNone) ∧
    (clampConfig s.thermalLevel cfg).txPowerDbm ≠ s.cfg.txPowerDbm

/-- A poll that recovers from throttling and restores the stored power. -/
def PollRestores (s : Settings) (io : PollInput) : Prop :=
  s.radioOk = true ∧ s.thermalLevel = 1 ∧ nextLevel s io.nowMs io.thermal.reading = 0

/-- With the radio up, a CONFIG that gets to the power register asks for a
power in range, and a recovery finds one stored. -/
def WritesInRange (w : RadioWorker) : Call → Prop
  | .applyConfig cfg io => w.thermalPoweredDown = false → ConfigWrites w.toSettings cfg io →
      InRange (maxPower w.thermalLevel) cfg.txPowerDbm
  | .pollOnce io => w.thermalPoweredDown = false → PollRestores w.toSettings io →
      InRange kMaxSafeBenchTxPowerDbm w.cfg.txPowerDbm
  | _ => True

theorem configures_capped_iff {s s' : Settings} {cfg : Config} {io : ConfigInput}
    {v : Except String Unit} {ws : List (Settings × Int8)} (h : Configures cfg io s v s' ws) :
    (∀ p ∈ ws, Capped p) ↔ (s.thermalPoweredDown = false → ConfigWrites s cfg io →
      InRange (maxPower s.thermalLevel) cfg.txPowerDbm) := by
  have hnone : ∀ hw : ¬ConfigWrites s cfg io, (∀ p ∈ ([] : List (Settings × Int8)), Capped p) ↔
      (s.thermalPoweredDown = false → ConfigWrites s cfg io →
        InRange (maxPower s.thermalLevel) cfg.txPowerDbm) :=
    fun hw ↦ iff_of_true (by simp) fun _ h ↦ absurd h hw
  cases h with
  | refused hok => exact hnone fun hw ↦ by simp [hw.1] at hok
  | unchanged hok hsame =>
      exact hnone fun hw ↦ hw.2.2 (congrArg Config.txPowerDbm (configUnchanged_iff.mp hsame).2)
  | failed hok hnew hfreq hst => exact hnone fun hw ↦ hst (hw.2.1 hfreq)
  | applied hok hnew hst =>
      by_cases hpow : (clampConfig s.thermalLevel cfg).txPowerDbm ≠ s.cfg.txPowerDbm
      · rw [if_pos hpow]
        have hle : (clampConfig s.thermalLevel cfg).txPowerDbm.toInt ≤
            (maxPower s.thermalLevel).toInt := by
          rw [clampConfig_power]
          exact min_le_right _ _
        have hrange := (halfDbm_le_iff (maxPower_bounds s.thermalLevel) hle).trans
          (inRange_clamp s.thermalLevel cfg)
        simp only [List.mem_singleton, forall_eq, Capped, Settings.retuned]
        exact imp_congr_right fun _ ↦
          hrange.trans ⟨fun h _ ↦ h, fun h ↦ h ⟨hok, hst, hpow⟩⟩
      · rw [if_neg hpow]
        exact hnone fun hw ↦ hpow hw.2.2

/-! ## The stored power never exceeds the cap of level 0 -/

theorem clampConfig_storedCapped (level : Int) (cfg : Config) :
    (clampConfig level cfg).txPowerDbm.toInt ≤ 10 := by
  rw [clampConfig_power]
  exact (min_le_right _ _).trans (maxPower_bounds level).2

theorem configures_storedCapped {s s' : Settings} {cfg : Config} {io : ConfigInput}
    {v : Except String Unit} {ws : List (Settings × Int8)} (h : Configures cfg io s v s' ws)
    (hs : s.cfg.txPowerDbm.toInt ≤ 10) : s'.cfg.txPowerDbm.toInt ≤ 10 := by
  cases h with
  | refused hok => exact hs
  | unchanged hok hsame => exact hs
  | failed hok hnew hfreq hst => exact clampConfig_storedCapped _ _
  | applied hok hnew hst => exact clampConfig_storedCapped _ _

theorem enters_storedCapped {s s' : Settings} {io : ThermalInput} {prev level : Int}
    {ws : List (Settings × Int8)} (h : Enters io prev s level s' ws)
    (hs : s.cfg.txPowerDbm.toInt ≤ 10) : s'.cfg.txPowerDbm.toInt ≤ 10 := by
  cases h with
  | started hdown hio hconfig => exact configures_storedCapped hconfig hs
  | throttled hok hup => split <;> exact hs
  | restored hprev hok hup => split <;> exact hs
  | _ => exact hs

theorem enters_capped_iff {s s' : Settings} {io : ThermalInput} {prev level : Int}
    {ws : List (Settings × Int8)} (h : Enters io prev s level s' ws)
    (hs : s.cfg.txPowerDbm.toInt ≤ 10) :
    (∀ p ∈ ws, Capped p) ↔
      (s.thermalPoweredDown = false → s.radioOk = true ∧ prev = 1 ∧ level = 0 →
        InRange kMaxSafeBenchTxPowerDbm s.cfg.txPowerDbm) := by
  have hsafe : (∀ p ∈ ws, Capped p) →
      (s.thermalPoweredDown = false → ¬(s.radioOk = true ∧ prev = 1 ∧ level = 0)) →
      ((∀ p ∈ ws, Capped p) ↔
        (s.thermalPoweredDown = false → s.radioOk = true ∧ prev = 1 ∧ level = 0 →
          InRange kMaxSafeBenchTxPowerDbm s.cfg.txPowerDbm)) :=
    fun hws hno ↦ iff_of_true hws fun hup h ↦ absurd h (hno hup)
  cases h with
  | cutoff => exact hsafe (by simp) (by simp)
  | throttled hok hup =>
      refine hsafe ?_ (by simp)
      simp only [List.mem_singleton, forall_eq, Capped]
      exact fun _ ↦ by decide
  | unthrottled h => exact hsafe (by simp) (by simp)
  | restored hprev hok hup =>
      simp only [List.mem_singleton, forall_eq, Capped, hok, hup, hprev, true_implies, and_self]
      exact halfDbm_le_iff (maxPower_bounds 0) hs
  | idle hup h =>
      refine hsafe (by simp) fun _ hr ↦ ?_
      rcases h with h | h
      · exact h hr.2.1
      · simp [h] at hr
  | failed hdown hio hws =>
      refine hsafe (fun p hp hup ↦ ?_) (by simp [hdown])
      rw [hws p hp] at hup
      simp [Settings.starting, hdown] at hup
  | started hdown hio hconfig =>
      refine hsafe ?_ (by simp [hdown])
      intro p hp
      rcases List.mem_cons.mp hp with rfl | hp
      · intro hup
        simp [Settings.starting, hdown] at hup
      · refine (configures_capped_iff hconfig).mpr (fun _ hw ↦ absurd ?_ hw.2.2) p hp
        refine Int8.toInt_inj.mp ((clampConfig_power _ _).trans ?_)
        exact min_eq_left hs
  | other h => exact hsafe (by simp) fun _ hr ↦ h.1 hr.2.2

/-! ## Steps and runs -/

theorem power_of_noScan {s s' : Settings} (h : s'.noScan = s.noScan) :
    s'.cfg.txPowerDbm = s.cfg.txPowerDbm :=
  (congrArg (fun s : Settings ↦ s.cfg.txPowerDbm) h :)

theorem power_of_noSensor {s s' : Settings} (h : s'.noSensor = s.noSensor) :
    s'.cfg.txPowerDbm = s.cfg.txPowerDbm :=
  (congrArg (fun s : Settings ↦ s.cfg.txPowerDbm) h :)

theorem callDoes_storedCapped {s s' : Settings} {c : Call} {ws : List (Settings × Int8)}
    (h : CallDoes s c s' ws) (hs : s.cfg.txPowerDbm.toInt ≤ 10) :
    s'.cfg.txPowerDbm.toInt ≤ 10 := by
  cases h with
  | config h => exact configures_storedCapped h hs
  | scan h => rwa [power_of_noScan h]
  | enqueue => exact hs
  | stay h₁ hlevel h' => rwa [power_of_noScan h', power_of_noSensor h₁]
  | enter h₁ hlevel h₂ h' =>
      rw [power_of_noScan h']
      exact enters_storedCapped h₂ (by rwa [power_of_noSensor h₁])

/-- One call keeps the cap exactly if what it writes is in range. -/
theorem callDoes_capped_iff {w : RadioWorker} {c : Call} {s' : Settings}
    {ws : List (Settings × Int8)} (h : CallDoes w.toSettings c s' ws)
    (hw : w.cfg.txPowerDbm.toInt ≤ 10) :
    (∀ p ∈ ws, Capped p) ↔ WritesInRange w c := by
  cases h with
  | config h => exact configures_capped_iff h
  | scan h => exact iff_of_true (by simp) trivial
  | enqueue => exact iff_of_true (by simp) trivial
  | stay h₁ hlevel h' =>
      refine iff_of_true (by simp) fun _ hr ↦ ?_
      obtain ⟨-, hone, hzero⟩ := hr
      rw [hlevel, hone] at hzero
      cases hzero
  | enter h₁ hlevel h₂ h' =>
      have hpower := power_of_noSensor h₁
      have hok := congrArg Settings.radioOk h₁
      have hup := congrArg Settings.thermalPoweredDown h₁
      rw [enters_capped_iff h₂ (by rwa [hpower]), hpower]
      simp only [Settings.noSensor] at hok hup
      rw [hok, hup]
      rfl

/-- In every run from the start of the service, the powers written to a radio
that is up keep below the cap in force exactly if those that CONFIGs and
recoveries get written are in range. -/
theorem power_capped_iff (calls : List Call) :
    (∀ p ∈ powerWrites (booted.log ++ (run workerStep booted.state calls).2), Capped p) ↔
      Along workerStep WritesInRange booted.state calls := by
  have hboot := init_ok (show ({} : InitInput).ok by decide) 44 {} {} rfl
  have hstored : booted.state.cfg.txPowerDbm.toInt ≤ 10 := by
    rw [booted_settings.2]
    decide
  have hfirst : ∀ p ∈ powerWrites booted.log, Capped p := by
    rw [show powerWrites booted.log = _ from hboot.2.2]
    simp only [List.mem_singleton, forall_eq]
    exact fun _ ↦ by decide
  have hrun : (∀ p ∈ powerWrites (run workerStep booted.state calls).2, Capped p) ↔
      Along workerStep WritesInRange booted.state calls := by
    rw [forall_powerWrites_run]
    refine Along.congr (I := fun w ↦ w.cfg.txPowerDbm.toInt ≤ 10) (fun w c hw ↦ ?_)
      (fun w c hw _ ↦ callDoes_storedCapped (workerStep_does w c) hw) hstored
    exact callDoes_capped_iff (workerStep_does w c) hw
  rw [powerWrites_append, ← hrun]
  simp only [List.mem_append, or_imp, forall_and]
  exact and_iff_right hfirst

/-- A CONFIG for -100 dBm reaches the chip as +56 half-dBm, 28 dBm. -/
theorem power_not_capped :
    let writes := powerWrites
      (booted.log ++ (run workerStep booted.state [.applyConfig { txPowerDbm := -100 } {}]).2)
    (∃ p ∈ writes, p.1.thermalPoweredDown = false ∧ p.1.thermalLevel = 0 ∧
      (halfDbm p.2).toInt = 56) ∧ ¬∀ p ∈ writes, Capped p := by
  intro writes
  have hwrite : ∃ p ∈ writes, p.1.thermalPoweredDown = false ∧ p.1.thermalLevel = 0 ∧
      (halfDbm p.2).toInt = 56 := by decide
  refine ⟨hwrite, fun hall ↦ ?_⟩
  obtain ⟨p, hp, hup, hlevel, hhalf⟩ := hwrite
  have hcap := hall p hp hup
  rw [hlevel, hhalf] at hcap
  exact absurd hcap (by decide)

end RadioService
