import RadioService.Traffic

/-!
# The worker seen through its settings

Which branch a configuration function takes, what it leaves in the settings
and which powers it writes to the chip depend on the settings alone.  `Does`
says so for one program and composes along `do` blocks; the configuration
functions are then worked out one by one.
-/

namespace RadioService

open Burst Traced

/-! ## Writes to the power register -/

/-- The power an effect writes to the chip. -/
def Effect.power? : Effect → Option Int8
  | .radio (.setOutputPower dbm _) => some dbm
  | _ => none

/-- The powers written in a log, each with the settings it is written under. -/
def powerWrites (log : List (RadioWorker × Effect)) : List (Settings × Int8) :=
  log.filterMap fun p ↦ p.2.power?.map (p.1.toSettings, ·)

@[simp] theorem powerWrites_nil : powerWrites [] = [] := rfl

@[simp] theorem powerWrites_append (l l' : List (RadioWorker × Effect)) :
    powerWrites (l ++ l') = powerWrites l ++ powerWrites l' :=
  List.filterMap_append

theorem powerWrites_eq_nil {log : List (RadioWorker × Effect)}
    (h : ∀ p ∈ log, p.2.power? = none) : powerWrites log = [] := by
  refine List.filterMap_eq_nil_iff.mpr fun p hp ↦ ?_
  rw [h p hp]
  rfl

theorem Effect.power?_of_traffic {e : Effect} (h : e.traffic = true) : e.power? = none := by
  unfold Effect.power?
  split
  · cases h
  · rfl

/-! ## Programs on the settings -/

/-- From the settings `s`, `m` returns `v`, leaves the settings `s'` and writes
the powers `ws`. -/
def Does {α : Type} (m : Work α) (s : Settings) (v : α) (s' : Settings)
    (ws : List (Settings × Int8)) : Prop :=
  ∀ w : RadioWorker, w.toSettings = s →
    (m.run w).val = v ∧ (m.run w).state.toSettings = s' ∧ powerWrites (m.run w).log = ws

namespace Does

variable {α β : Type} {s s' s'' : Settings} {ws ws' : List (Settings × Int8)}

theorem pure (v : α) (s : Settings) : Does (Pure.pure v : Work α) s v s [] := by
  rintro w rfl
  exact ⟨rfl, rfl, rfl⟩

theorem bind {m : Work α} {g : α → Work β} {v : α} {v' : β}
    (hm : Does m s v s' ws) (hg : Does (g v) s' v' s'' ws') :
    Does (m >>= g) s v' s'' (ws ++ ws') := by
  intro w hw
  obtain ⟨hval, hstate, hwrites⟩ := hm w hw
  obtain ⟨hval', hstate', hwrites'⟩ := hg _ hstate
  rw [← hval] at hval' hstate' hwrites'
  refine ⟨hval', hstate', ?_⟩
  rw [run_bind, Outcome.prepend_log, powerWrites_append, hwrites, hwrites']

theorem bind_silent {m : Work α} {g : α → Work β} {v : α} {v' : β}
    (hm : Does m s v s' []) (hg : Does (g v) s' v' s'' ws) : Does (m >>= g) s v' s'' ws :=
  hm.bind hg

theorem if_true {c : Prop} [Decidable c] {m n : Work α} {v : α} (hc : c)
    (hm : Does m s v s' ws) : Does (if c then m else n) s v s' ws := by
  rwa [if_pos hc]

theorem if_false {c : Prop} [Decidable c] {m n : Work α} {v : α} (hc : ¬c)
    (hn : Does n s v s' ws) : Does (if c then m else n) s v s' ws := by
  rwa [if_neg hc]

/-- Two ways to the same value and settings, before a common rest. -/
theorem ite_bind {c : Prop} [Decidable c] {m n : Work α} {k : α → Work β} {v : α} {v' : β}
    {t : Settings} (hm : c → Does m s v t []) (hn : ¬c → Does n s v t [])
    (hk : Does (k v) t v' s'' ws) :
    Does (if c then m >>= k else n >>= k) s v' s'' ws := by
  split
  · exact (hm ‹_›).bind_silent hk
  · exact (hn ‹_›).bind_silent hk

theorem read {g : RadioWorker → Work β} {v : β}
    (h : ∀ w : RadioWorker, w.toSettings = s → Does (g w) s v s' ws) :
    Does (Traced.read >>= g) s v s' ws :=
  fun w hw ↦ h w hw w hw

/-- A change of state that changes the settings by `g`. -/
theorem update (g : Settings → Settings) {f : RadioWorker → RadioWorker} {m : Work α} {v : α}
    (hf : (fun w ↦ (f w).toSettings) = fun w ↦ g w.toSettings) (hm : Does m (g s) v s' ws) :
    Does (Traced.update f >>= fun _ ↦ m) s v s' ws := by
  rintro w rfl
  exact hm (f w) (congrFun hf w)

theorem keeps {m : Work Unit} (h : KeepsSettings m) (s : Settings) : Does m s () s [] := by
  rintro w rfl
  exact ⟨rfl, (h w).1,
    powerWrites_eq_nil fun p hp ↦ Effect.power?_of_traffic ((h w).2 p hp).2⟩

theorem then_keeps {m : Work Unit} {g : Unit → Work β} {v : β} (h : KeepsSettings m)
    (hg : Does (g ()) s v s' ws) : Does (m >>= g) s v s' ws :=
  (keeps h s).bind_silent hg

theorem discard {m : Work α} {v : α} (h : Does m s v s' ws) :
    Does (Functor.discard m) s () s' ws := by
  intro w hw
  rw [run_discard]
  exact ⟨rfl, (h w hw).2⟩

theorem setFrequency (hz : UInt32) (st : Int16) (s : Settings) :
    Does (setFrequency hz st) s st
      (if st = errNone then { s with chipFreqHz := hz } else s) [] := by
  rintro w rfl
  by_cases h : st = errNone <;>
    simp [RadioService.setFrequency, radioCall, powerWrites, Effect.power?, h]

theorem setOutputPower (dbm : Int8) (st : Int16) (s : Settings) :
    Does (setOutputPower dbm st) s st
      (if st = errNone then { s with chipPowerDbm := dbm } else s) [(s, dbm)] := by
  rintro w rfl
  by_cases h : st = errNone <;>
    simp [RadioService.setOutputPower, radioCall, powerWrites, Effect.power?, h]

end Does

/-! ## `applyConfig` -/

@[simp] theorem clampConfig_frequencyHz (level : Int) (cfg : Config) :
    (clampConfig level cfg).frequencyHz = cfg.frequencyHz := by
  unfold clampConfig
  split <;> rfl

@[simp] theorem clampConfig_role (level : Int) (cfg : Config) :
    (clampConfig level cfg).role = cfg.role := by
  unfold clampConfig
  split <;> rfl

theorem clampConfig_power (level : Int) (cfg : Config) :
    (clampConfig level cfg).txPowerDbm.toInt = min cfg.txPowerDbm.toInt (maxPower level).toInt := by
  unfold clampConfig
  split <;> rename_i h
  · rw [gt_iff_lt, Int8.lt_iff_toInt_lt] at h
    exact (min_eq_right h.le).symm
  · rw [gt_iff_lt, Int8.lt_iff_toInt_lt, not_lt] at h
    exact (min_eq_left h).symm

theorem configUnchanged_iff {s : Settings} {clamped : Config} :
    configUnchanged s clamped = true ↔ s.scanActive = false ∧ clamped = s.cfg := by
  obtain ⟨f, p, r⟩ := clamped
  cases hcfg : s.cfg
  simp [configUnchanged, hcfg, and_assoc]

theorem applyConfig_refused {s : Settings} (cfg : Config) (io : ConfigInput)
    (hok : s.radioOk = false) :
    Does (applyConfig cfg io) s (.error "radio init failed") s [] := by
  refine Does.read fun w hw ↦ ?_
  rw [← hw] at hok
  simpa [hok] using Does.pure _ s

theorem applyConfig_unchanged {s : Settings} {cfg : Config} (io : ConfigInput)
    (hok : s.radioOk = true)
    (h : configUnchanged s (clampConfig s.thermalLevel cfg) = true) :
    Does (applyConfig cfg io) s (.ok ()) s [] := by
  refine Does.read fun w hw ↦ ?_
  rw [← hw] at hok h
  simpa [hok, h] using Does.pure _ s

theorem applyConfig_new {s s' : Settings} {cfg : Config} {io : ConfigInput}
    {v : Except String Unit} {ws : List (Settings × Int8)} (hok : s.radioOk = true)
    (h : configUnchanged s (clampConfig s.thermalLevel cfg) = false)
    (hrest : Does (retune (clampConfig s.thermalLevel cfg) s.cfg.txPowerDbm io)
      { s with scanActive := false, cfg := clampConfig s.thermalLevel cfg } v s' ws) :
    Does (applyConfig cfg io) s v s' ws := by
  refine Does.read fun w hw ↦ ?_
  subst hw
  simp only [hok, h, Bool.not_true, Bool.false_eq_true, if_false]
  exact Does.update
    (fun s ↦ { s with scanActive := false, cfg := clampConfig w.thermalLevel cfg }) rfl
    (Does.then_keeps .standby hrest)

theorem applyConfig_failed {s : Settings} {cfg : Config} {io : ConfigInput}
    (hok : s.radioOk = true)
    (h : configUnchanged s (clampConfig s.thermalLevel cfg) = false)
    (hfreq : (clampConfig s.thermalLevel cfg).frequencyHz > 0) (hst : io.freqSt ≠ errNone) :
    Does (applyConfig cfg io) s (.error "set frequency failed")
      { s with scanActive := false, cfg := clampConfig s.thermalLevel cfg } [] := by
  refine applyConfig_new hok h ?_
  unfold retune
  rw [if_pos hfreq]
  have htune := Does.setFrequency (clampConfig s.thermalLevel cfg).frequencyHz io.freqSt
    { s with scanActive := false, cfg := clampConfig s.thermalLevel cfg }
  rw [if_neg hst] at htune
  exact htune.bind_silent (Does.if_true hst (Does.then_keeps .armReceive (Does.pure _ _)))

def Settings.configured (s : Settings) (clamped : Config) (io : ConfigInput) : Settings :=
  { s with
    scanActive := false
    cfg := clamped
    chipFreqHz := if clamped.frequencyHz > 0 then clamped.frequencyHz else s.chipFreqHz
    chipPowerDbm := if clamped.txPowerDbm ≠ s.cfg.txPowerDbm ∧ io.powerSt = errNone then
      clamped.txPowerDbm else s.chipPowerDbm }

def Settings.retuned (s : Settings) (clamped : Config) : Settings :=
  { s with
    scanActive := false
    cfg := clamped
    chipFreqHz := if clamped.frequencyHz > 0 then clamped.frequencyHz else s.chipFreqHz }

theorem applyConfig_applied {s : Settings} {cfg : Config} {io : ConfigInput}
    (hok : s.radioOk = true)
    (h : configUnchanged s (clampConfig s.thermalLevel cfg) = false)
    (hst : (clampConfig s.thermalLevel cfg).frequencyHz > 0 → io.freqSt = errNone) :
    Does (applyConfig cfg io) s (.ok ())
      (s.configured (clampConfig s.thermalLevel cfg) io)
      (if (clampConfig s.thermalLevel cfg).txPowerDbm ≠ s.cfg.txPowerDbm then
        [(s.retuned (clampConfig s.thermalLevel cfg),
          (clampConfig s.thermalLevel cfg).txPowerDbm)] else []) := by
  refine applyConfig_new hok h ?_
  generalize clampConfig s.thermalLevel cfg = clamped at hst ⊢
  unfold retune
  dsimp only
  refine Does.ite_bind (v := errNone) (t := s.retuned clamped) ?_ ?_
    (Does.if_false (not_not.mpr rfl) ?_)
  · intro hfreq
    have hset := Does.setFrequency clamped.frequencyHz io.freqSt
      { s with scanActive := false, cfg := clamped }
    rw [hst hfreq] at hset ⊢
    simpa [Settings.retuned, hfreq] using hset
  · intro hfreq
    simpa [Settings.retuned, hfreq] using Does.pure errNone
      { s with scanActive := false, cfg := clamped }
  have hend : ∀ s : Settings, Does (do
      armReceive
      return Except.ok ()) s (.ok () : Except String Unit) s [] :=
    fun s ↦ Does.then_keeps .armReceive (Does.pure _ _)
  by_cases hpow : clamped.txPowerDbm ≠ s.cfg.txPowerDbm
  · rw [if_pos hpow, if_pos hpow]
    have hset := (Does.setOutputPower clamped.txPowerDbm io.powerSt (s.retuned clamped)).discard
    have hsame : (if io.powerSt = errNone then
        { s.retuned clamped with chipPowerDbm := clamped.txPowerDbm } else s.retuned clamped) =
        s.configured clamped io := by
      by_cases hst : io.powerSt = errNone <;>
        simp [Settings.configured, Settings.retuned, hst, hpow]
    rw [hsame] at hset
    exact hset.bind (hend _)
  · rw [if_neg hpow, if_neg hpow]
    have hsame : s.retuned clamped = s.configured clamped io := by
      simp [Settings.configured, Settings.retuned, hpow]
    rw [hsame]
    exact hend _

/-- The four ways a CONFIG ends: refused for a radio that is down, left alone
for nothing new, failed at the retune, applied. -/
inductive Configures (cfg : Config) (io : ConfigInput) (s : Settings) :
    Except String Unit → Settings → List (Settings × Int8) → Prop
  | refused (hok : s.radioOk = false) :
      Configures cfg io s (.error "radio init failed") s []
  | unchanged (hok : s.radioOk = true)
      (h : configUnchanged s (clampConfig s.thermalLevel cfg) = true) :
      Configures cfg io s (.ok ()) s []
  | failed (hok : s.radioOk = true)
      (h : configUnchanged s (clampConfig s.thermalLevel cfg) = false)
      (hfreq : cfg.frequencyHz > 0) (hst : io.freqSt ≠ errNone) :
      Configures cfg io s (.error "set frequency failed")
        { s with scanActive := false, cfg := clampConfig s.thermalLevel cfg } []
  | applied (hok : s.radioOk = true)
      (h : configUnchanged s (clampConfig s.thermalLevel cfg) = false)
      (hst : cfg.frequencyHz > 0 → io.freqSt = errNone) :
      Configures cfg io s (.ok ()) (s.configured (clampConfig s.thermalLevel cfg) io)
        (if (clampConfig s.thermalLevel cfg).txPowerDbm ≠ s.cfg.txPowerDbm then
          [(s.retuned (clampConfig s.thermalLevel cfg),
            (clampConfig s.thermalLevel cfg).txPowerDbm)] else [])

theorem applyConfig_cases (cfg : Config) (io : ConfigInput) (s : Settings) :
    ∃ v s' ws, Configures cfg io s v s' ws ∧ Does (applyConfig cfg io) s v s' ws := by
  cases hok : s.radioOk
  case false => exact ⟨_, _, _, .refused hok, applyConfig_refused cfg io hok⟩
  cases h : configUnchanged s (clampConfig s.thermalLevel cfg)
  case true => exact ⟨_, _, _, .unchanged hok h, applyConfig_unchanged io hok h⟩
  by_cases hst : cfg.frequencyHz > 0 → io.freqSt = errNone
  · refine ⟨_, _, _, .applied hok h hst, applyConfig_applied hok h ?_⟩
    rwa [clampConfig_frequencyHz]
  · obtain ⟨hfreq, hst⟩ := Classical.not_imp.mp hst
    refine ⟨_, _, _, .failed hok h hfreq hst, applyConfig_failed hok h ?_ hst⟩
    rwa [clampConfig_frequencyHz]

end RadioService
