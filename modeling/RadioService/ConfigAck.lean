import RadioService.WorkerRun

/-!
# What the answer to a CONFIG says

An acknowledgement should mean that the chip has the requested frequency, and
a refusal that nothing has changed.  `applyConfig` stores a configuration
before the chip has taken it, and compares the next one with what it stored.
-/

namespace RadioService

open Burst Traced Machine

/-- A refused CONFIG changes neither configuration nor scan nor chip; an
accepted one that asks for a frequency leaves the chip on it. -/
def AnswerSound (s s' : Settings) (cfg : Config) : Except String Unit → Prop
  | .error _ => s'.cfg = s.cfg ∧ s'.scanActive = s.scanActive ∧
      s'.chipFreqHz = s.chipFreqHz ∧ s'.chipPowerDbm = s.chipPowerDbm
  | .ok _ => cfg.frequencyHz > 0 → s'.chipFreqHz = cfg.frequencyHz

/-- Where the answer is sound: an early return finds the chip on the stored
frequency, and a retune succeeds. -/
def RetuneHeld (s : Settings) (cfg : Config) (io : ConfigInput) : Prop :=
  s.radioOk = true → cfg.frequencyHz > 0 →
    if configUnchanged s (clampConfig s.thermalLevel cfg) then s.chipFreqHz = s.cfg.frequencyHz
    else io.freqSt = errNone

theorem answer_sound_iff (w : RadioWorker) (cfg : Config) (io : ConfigInput) :
    AnswerSound w.toSettings ((applyConfig cfg io).run w).state.toSettings cfg
        ((applyConfig cfg io).run w).val ↔
      RetuneHeld w.toSettings cfg io := by
  obtain ⟨v, s', ws, hcases, hdoes⟩ := applyConfig_cases cfg io w.toSettings
  obtain ⟨hval, hstate, -⟩ := hdoes w rfl
  rw [hval, hstate]
  cases hcases with
  | refused hok => simp [AnswerSound, RetuneHeld, hok]
  | unchanged hok hsame =>
      have hfreq : w.cfg.frequencyHz = cfg.frequencyHz := by
        rw [← (configUnchanged_iff.mp hsame).2, clampConfig_frequencyHz]
      simp [AnswerSound, RetuneHeld, hok, hsame, hfreq]
  | failed hok hnew hfreq hst =>
      refine iff_of_false ?_ fun h ↦ hst (by simpa [hnew] using h hok hfreq)
      rintro ⟨hcfg, hscan, -, -⟩
      have hsame := configUnchanged_iff.mpr ⟨hscan.symm, hcfg⟩
      rw [hnew] at hsame
      exact absurd hsame (by decide)
  | applied hok hnew hst =>
      refine iff_of_true (fun hfreq ↦ ?_) (fun _ hfreq ↦ ?_)
      · simp [Settings.configured, hfreq]
      · simp [hnew, hst hfreq]

/-- The answer of a call, if it is a CONFIG, is sound. -/
def CallAnsweredSoundly (w : RadioWorker) : Call → Prop
  | .applyConfig cfg io => AnswerSound w.toSettings
      ((applyConfig cfg io).run w).state.toSettings cfg ((applyConfig cfg io).run w).val
  | _ => True

/-- The retune of a call, if it is a CONFIG, is held. -/
def CallRetuneHeld (w : RadioWorker) : Call → Prop
  | .applyConfig cfg io => RetuneHeld w.toSettings cfg io
  | _ => True

theorem call_answered_iff (w : RadioWorker) (c : Call) :
    CallAnsweredSoundly w c ↔ CallRetuneHeld w c := by
  cases c with
  | applyConfig cfg io => exact answer_sound_iff w cfg io
  | _ => exact Iff.rfl

end RadioService
