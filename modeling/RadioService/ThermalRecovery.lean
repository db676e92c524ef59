import RadioService.Listening

/-!
# Back from a cutoff

A cutoff takes the power off the chip.  Recovery runs `init`, which puts the
chip on its default frequency and power, and then applies the CONFIG of
before; that is compared with what the worker has stored, not with the chip.
-/

namespace RadioService

open Burst Traced Machine

/-- A radio that is up, does not scan and has a frequency. -/
structure Settled (s : Settings) : Prop where
  ok : s.radioOk = true
  up : s.thermalPoweredDown = false
  noScan : s.scanActive = false
  tuned : s.cfg.frequencyHz > 0

/-- The chip is as the configuration asks for, and armed. -/
def Restored (cfg : Config) (w : RadioWorker) : Prop :=
  w.chipFreqHz = cfg.frequencyHz ∧ w.chipPowerDbm.toInt = min cfg.txPowerDbm.toInt 10 ∧
    (cfg.role ≠ 1 → w.chipMode = .receive)

/-- Where recovery restores a configuration: the configuration is what `init`
programs, or its power is above the cap, so that it is applied, and retunes. -/
def RecoveryHeld (cfg : Config) (io : ThermalInput) : Prop :=
  (cfg.frequencyHz = 915000000 ∧ cfg.txPowerDbm = 10) ∨
    (10 < cfg.txPowerDbm.toInt ∧ (cfg.frequencyHz = 915000000 ∨ io.config.freqSt = errNone))

/-! ## The cutoff -/

def Settings.cut (s : Settings) : Settings :=
  { s with thermalLevel := 2, thermalPoweredDown := true }

theorem Settings.noSensor_cut (s : Settings) : s.cut.noSensor = s.noSensor.cut := rfl

theorem cut_of_down {s : Settings} (hlevel : s.thermalLevel = 2)
    (hdown : s.thermalPoweredDown = true) : s = s.cut := by
  cases s
  simp_all [Settings.cut]

theorem poll_cut (io : PollInput) {w : RadioWorker} (hnext : pollLevel w io = 2)
    (hdown : w.thermalLevel = 2 → w.thermalPoweredDown = true) :
    ((pollOnce io).run w).state.toSettings.noSensor = w.toSettings.cut.noSensor := by
  obtain ⟨s, s', ws, hread, htick, -, hcases⟩ := thermalTick_cases io.nowMs io.thermal w
  have hcut : s'.noSensor = w.toSettings.cut.noSensor := by
    rw [show nextLevel _ _ _ = 2 from hnext] at hcases
    rcases hcases with ⟨hlevel, rfl, -⟩ | ⟨hlevel, henter⟩
    · exact hread.trans (congrArg Settings.noSensor (cut_of_down hlevel.symm (hdown hlevel.symm)))
    · cases henter with
      | cutoff =>
          rw [Settings.noSensor_cut w.toSettings, ← hread]
          rfl
      | other h => exact absurd rfl h.2.2
  have hlevel : ((thermalTick io.nowMs io.thermal).run w).state.thermalLevel ≥ 2 := by
    have hsame := congrArg Settings.thermalLevel hcut
    rw [← htick] at hsame
    exact hsame.ge
  rw [pollOnce_eq, run_bind, afterTick_cut io hlevel]
  exact (congrArg Settings.noSensor htick).trans hcut

theorem cut_of_noSensor {w w₀ : RadioWorker}
    (h : w.toSettings.noSensor = w₀.toSettings.cut.noSensor) :
    w.toSettings.cut.noSensor = w₀.toSettings.cut.noSensor := by
  rw [Settings.noSensor_cut, h]
  rfl

theorem polls_cut {w : RadioWorker} {ios : List PollInput} (hios : ios ≠ [])
    (hdown : w.thermalLevel = 2 → w.thermalPoweredDown = true)
    (hcut : Along (machine pollOnce) (fun w io ↦ pollLevel w io = 2) w ios) :
    (run (machine pollOnce) w ios).1.toSettings.noSensor = w.toSettings.cut.noSensor := by
  induction ios generalizing w with
  | nil => exact absurd rfl hios
  | cons io ios ih =>
      have hfirst := poll_cut io hcut.1 hdown
      cases ios with
      | nil => exact hfirst
      | cons io' ios =>
          have hdown' : ((pollOnce io).run w).state.thermalPoweredDown = true :=
            congrArg Settings.thermalPoweredDown hfirst
          rw [run_cons, ← cut_of_noSensor hfirst]
          exact ih (w := ((pollOnce io).run w).state) (by simp) (fun _ ↦ hdown') hcut.2

/-! ## The recovery -/

theorem clampConfig_zero_iff (cfg : Config) :
    clampConfig 0 cfg = cfg ↔ cfg.txPowerDbm.toInt ≤ 10 := by
  have hpow := clampConfig_power 0 cfg
  have hmax : (maxPower 0).toInt = 10 := rfl
  rw [hmax] at hpow
  constructor
  · intro h
    rw [h] at hpow
    omega
  · intro h
    rw [min_eq_left h, Int8.toInt_inj] at hpow
    have hfreq := clampConfig_frequencyHz 0 cfg
    have hrole := clampConfig_role 0 cfg
    cases hclamp : clampConfig 0 cfg
    simp_all

/-- The CONFIG of before, applied to a chip fresh from `init`. -/
theorem restored_settings_iff {s s' : Settings} {io : ThermalInput} {v : Except String Unit}
    {ws : List (Settings × Int8)} (h : Configures s.cfg io.config s v s' ws)
    (hok : s.radioOk = true) (hscan : s.scanActive = false) (hlevel : s.thermalLevel = 0)
    (htuned : s.cfg.frequencyHz > 0) (hfreq : s.chipFreqHz = 915000000)
    (hpow : s.chipPowerDbm = 10) :
    (s'.chipFreqHz = s.cfg.frequencyHz ∧
      s'.chipPowerDbm.toInt = min s.cfg.txPowerDbm.toInt 10) ↔ RecoveryHeld s.cfg io := by
  have hten : (10 : Int8).toInt = 10 := rfl
  have hsame : configUnchanged s (clampConfig s.thermalLevel s.cfg) = true ↔
      s.cfg.txPowerDbm.toInt ≤ 10 := by
    rw [configUnchanged_iff, hlevel, clampConfig_zero_iff]
    exact and_iff_right hscan
  have hcapped : (clampConfig 0 s.cfg).txPowerDbm.toInt = min s.cfg.txPowerDbm.toInt 10 :=
    clampConfig_power 0 s.cfg
  simp only [RecoveryHeld, ← Int8.toInt_inj, hten]
  cases h with
  | refused hdown => exact absurd (hok.symm.trans hdown) (by decide)
  | unchanged _ h =>
      have hle := hsame.mp h
      rw [hfreq, hpow, hten, min_eq_left hle]
      constructor
      · rintro ⟨hF, hp⟩
        exact .inl ⟨hF.symm, hp.symm⟩
      · rintro (⟨hF, hp⟩ | ⟨hp, -⟩)
        · exact ⟨hF.symm, hp.symm⟩
        · omega
  | failed _ h _ hst =>
      have hgt : 10 < s.cfg.txPowerDbm.toInt := by
        rw [← not_le, ← hsame, h]
        decide
      simp [hfreq, hpow, hten, hgt, hst, hgt.ne', hgt.le, eq_comm]
  | applied _ h hst =>
      have hgt : 10 < s.cfg.txPowerDbm.toInt := by
        rw [← not_le, ← hsame, h]
        decide
      have htuned' : (s.configured (clampConfig s.thermalLevel s.cfg) io.config).chipFreqHz =
          s.cfg.frequencyHz := by
        simp [Settings.configured, htuned]
      have hten' : (s.configured (clampConfig s.thermalLevel s.cfg) io.config).chipPowerDbm.toInt =
          10 := by
        simp only [Settings.configured]
        split
        · rw [hlevel, hcapped, min_eq_right hgt.le]
        · rw [hpow, hten]
      refine iff_of_true ⟨htuned', hten'.trans (min_eq_right hgt.le).symm⟩ ?_
      exact .inr ⟨hgt, .inr (hst htuned)⟩

theorem recovered_settings {w : RadioWorker} {s₀ : Settings} {io : PollInput}
    (hcut : w.toSettings.noSensor = s₀.cut.noSensor) (hcool : pollLevel w io = 0)
    (hinit : io.thermal.init.ok) :
    ∃ s v ws, s.cfg = s₀.cfg ∧ s.scanActive = s₀.scanActive ∧ s.radioOk = true ∧
      s.thermalPoweredDown = false ∧ s.thermalLevel = 0 ∧ s.chipFreqHz = 915000000 ∧
      s.chipPowerDbm = 10 ∧ Configures s.cfg io.thermal.config s v
        ((thermalTick io.nowMs io.thermal).run w).state.toSettings ws := by
  obtain ⟨s, s', ws, hread, htick, -, hcases⟩ := thermalTick_cases io.nowMs io.thermal w
  have hsame := hread.trans hcut
  have hdown : s.thermalPoweredDown = true := (congrArg Settings.thermalPoweredDown hsame :)
  have hlevel : w.thermalLevel = 2 := (congrArg Settings.thermalLevel hcut :)
  rw [show nextLevel _ _ _ = 0 from hcool, hlevel] at hcases
  obtain ⟨hzero, -⟩ | ⟨-, henter⟩ := hcases
  · cases hzero
  rw [htick]
  cases henter with
  | restored hprev => cases hprev
  | idle hup => simp [hdown] at hup
  | failed _ hio => exact absurd hinit hio
  | started _ _ hconfig =>
      refine ⟨{ { s with thermalLevel := 0 }.started s.powerGpio with
        thermalPoweredDown := false }, _, _, ?_, ?_, rfl, rfl, rfl, rfl, rfl, hconfig⟩
      · exact (congrArg Settings.cfg hsame :)
      · exact (congrArg Settings.scanActive hsame :)
  | other h => exact absurd rfl h.1

theorem configures_kept {s s' : Settings} {io : ConfigInput} {v : Except String Unit}
    {ws : List (Settings × Int8)} (h : Configures s.cfg io s v s' ws)
    (hscan : s.scanActive = false) :
    s'.radioOk = s.radioOk ∧ s'.thermalPoweredDown = s.thermalPoweredDown ∧
      s'.cfg.role = s.cfg.role ∧ s'.scanActive = false := by
  cases h <;> simp [Settings.configured, hscan]

/-- From a cutoff, a poll at level 0 whose `init` succeeds. -/
theorem poll_recovers {w : RadioWorker} {s₀ : Settings} {io : PollInput} (hs₀ : Settled s₀)
    (hcut : w.toSettings.noSensor = s₀.cut.noSensor) (hcool : pollLevel w io = 0)
    (hinit : io.thermal.init.ok) :
    Restored s₀.cfg ((pollOnce io).run w).state ↔ RecoveryHeld s₀.cfg io.thermal := by
  obtain ⟨s, v, ws, hcfg, hscan, hok, hup, hlevel, hfreq, hpow, hconfig⟩ :=
    recovered_settings hcut hcool hinit
  rw [hs₀.noScan] at hscan
  obtain ⟨hok', hup', hrole', hscan'⟩ := configures_kept hconfig hscan
  have htuned := hs₀.tuned
  rw [← hcfg] at htuned ⊢
  rw [← restored_settings_iff hconfig hok hscan hlevel htuned hfreq hpow]
  have hrest : ((pollOnce io).run w).state.toSettings =
      ((thermalTick io.nowMs io.thermal).run w).state.toSettings := by
    rw [pollOnce_eq, run_bind]
    exact afterTick_settled io hscan'
  rw [← hrest] at hok' hup' hrole' ⊢
  have hdown : w.thermalPoweredDown = true := (congrArg Settings.thermalPoweredDown hcut :)
  have harmed : s.cfg.role ≠ 1 → ((pollOnce io).run w).state.chipMode = .receive := by
    rw [← hrole']
    exact Listening.pollOnce io w (listening_of_down hdown) (hup'.trans hup) (hok'.trans hok)
  rw [Restored, ← and_assoc]
  exact and_iff_left harmed

/-- A cutoff of any length and the recovery from it restore the configuration
exactly where `RecoveryHeld` says. -/
theorem recovery_restores_iff (w : RadioWorker) (hw : Settled w.toSettings)
    (hlevel : w.thermalLevel ≠ 2) (ios : List PollInput) (hios : ios ≠ [])
    (hcut : Along (machine pollOnce) (fun w io ↦ pollLevel w io = 2) w ios) (last : PollInput)
    (hcool : pollLevel (run (machine pollOnce) w ios).1 last = 0)
    (hinit : last.thermal.init.ok) :
    Restored w.cfg (run (machine pollOnce) w (ios ++ [last])).1 ↔
      RecoveryHeld w.cfg last.thermal := by
  have hdown := polls_cut hios (fun h ↦ absurd h hlevel) hcut
  have hlast : (run (machine pollOnce) w (ios ++ [last])).1 =
      ((pollOnce last).run (run (machine pollOnce) w ios).1).state := by
    rw [run_append, run_cons, run_nil]
    rfl
  rw [hlast]
  generalize (run (machine pollOnce) w ios).1 = w' at *
  exact poll_recovers hw hdown hcool hinit

/-- The configuration that `init` programs is restored. -/
theorem recovery_restores_default :
    let polls := [pollAt 4000 2, pollAt 6000 2] ++ [pollAt 9000 0]
    Restored booted.state.cfg (run (machine pollOnce) booted.state polls).1 := by
  have hboot : Settled booted.state.toSettings := by
    rw [booted_settings.2]
    exact ⟨rfl, rfl, rfl, by decide⟩
  have hcut : Along (machine pollOnce) (fun w io ↦ pollLevel w io = 2) booted.state
      [pollAt 4000 2, pollAt 6000 2] := ⟨by decide, by decide, trivial⟩
  exact (recovery_restores_iff booted.state hboot (by decide) _ (by simp) hcut (pollAt 9000 0)
    (by decide) (by decide)).mpr (.inl ⟨rfl, rfl⟩)

/-- A CONFIG for 920 MHz and 5 dBm does not survive a cutoff: the chip comes
back on 915 MHz and 10 dBm. -/
theorem recovery_restores_default_only :
    let w := (workerStep booted.state
      (.applyConfig { frequencyHz := 920000000, txPowerDbm := 5 } {})).1
    let cut := (run (machine pollOnce) w [pollAt 4000 2]).1
    let back := (run (machine pollOnce) w [pollAt 4000 2, pollAt 8000 0]).1
    Settled w.toSettings ∧ w.thermalLevel = 0 ∧ w.chipFreqHz = 920000000 ∧
      cut.thermalPoweredDown = true ∧ back.thermalPoweredDown = false ∧
      back.chipFreqHz = 915000000 ∧ back.chipPowerDbm = 10 ∧ ¬Restored w.cfg back := by
  refine ⟨⟨by decide, by decide, by decide, by decide⟩, by decide, by decide, by decide,
    by decide, by decide, by decide, fun h ↦ ?_⟩
  exact absurd h.1 (by decide)

end RadioService
