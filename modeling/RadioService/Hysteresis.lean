import Mathlib.Tactic.IntervalCases
import Mathlib.Tactic.Linarith
import RadioService.Machine.Settling
import RadioService.ScanRun

/-!
# The ladders do not chatter

Fan, processor stage and thermal level are ladders over the temperature, each with a
threshold to go down that lies at least three degrees below the one to go up.  On
temperatures within three degrees a ladder moves twice at most: once from wherever it
was, and once more.
-/

namespace RadioService

open Machine Traced

variable {lo hi : ℚ}

/-! ## The ladders -/

/-- Where the processor goes up to a stage. -/
def stageUp (k : Int) : ℚ := 44 + 6 * k

/-- Where it leaves the stage again. -/
def stageDown (k : Int) : ℚ := 41 + 6 * k

theorem nextDvfs_bounds (stage : Int) (t : ℚ) :
    0 ≤ nextDvfs stage t ∧ nextDvfs stage t ≤ 5 := by
  unfold nextDvfs
  split_ifs <;> decide

theorem le_nextDvfs_of_up {stage k : Int} {t : ℚ} (hleast : 1 ≤ k) (hmost : k ≤ 5)
    (ht : stageUp k ≤ t) : k ≤ nextDvfs stage t := by
  unfold stageUp at ht
  unfold nextDvfs
  interval_cases k
  all_goals
    split_ifs <;> grind

theorem le_nextDvfs_of_down {stage k : Int} {t : ℚ} (hleast : 1 ≤ k) (hk : k ≤ stage)
    (hmost : stage ≤ 5) (ht : stageDown k ≤ t) : k ≤ nextDvfs stage t := by
  have hk5 : k ≤ 5 := hk.trans hmost
  unfold stageDown at ht
  unfold nextDvfs
  interval_cases k
  all_goals
    split_ifs <;> grind

theorem of_le_nextDvfs {stage k : Int} {t : ℚ} (hleast : 1 ≤ k) (hk : k ≤ nextDvfs stage t) :
    stageUp k ≤ t ∨ k ≤ stage ∧ stageDown k ≤ t := by
  have hmost : k ≤ 5 := hk.trans (nextDvfs_bounds stage t).2
  unfold stageUp stageDown
  unfold nextDvfs at hk
  interval_cases k
  all_goals
    split_ifs at hk <;> grind

theorem dvfs_ladder : Ladder 5 (3 : ℚ) stageUp stageDown nextDvfs where
  pos := by decide
  gap k := by
    unfold stageUp stageDown
    linarith
  up_step k := by
    unfold stageUp
    push_cast
    linarith
  down_step k := by
    unfold stageDown
    push_cast
    linarith
  range := nextDvfs_bounds
  climbs _ _ _ := le_nextDvfs_of_up
  stays _ _ _ := le_nextDvfs_of_down
  falls _ _ _ := of_le_nextDvfs

/-- Two readings out of a narrow band are near each other. -/
theorem near_of_band {t t' : ℚ} (hband : hi - lo < 3) (ht : t ∈ Set.Icc lo hi)
    (ht' : t' ∈ Set.Icc lo hi) : t - t' < 3 := by
  linarith [ht.2, ht'.1]

section

variable {t₀ t t' : ℚ} (hband : hi - lo < 3) (ht₀ : t₀ ∈ Set.Icc lo hi) (ht : t ∈ Set.Icc lo hi)
  (ht' : t' ∈ Set.Icc lo hi)

include hband ht ht'

/-- The fan goes on at 45 and off below 38. -/
theorem nextFan_settles (fanOn : Bool)
    (hmoved : nextFan (nextFan fanOn t₀) t ≠ nextFan fanOn t₀) :
    nextFan (nextFan (nextFan fanOn t₀) t) t' = nextFan (nextFan fanOn t₀) t := by
  have hnear := near_of_band hband ht ht'
  have hnear' := near_of_band hband ht' ht
  grind [nextFan]

include ht₀

/-- Level 2 is entered at 82 and left below 55, level 1 at 68 and below 60. -/
theorem sensorLevel_settles (level : Int)
    (hmoved : sensorLevel (sensorLevel level t₀) t ≠ sensorLevel level t₀) :
    sensorLevel (sensorLevel (sensorLevel level t₀) t) t' =
      sensorLevel (sensorLevel level t₀) t := by
  have hfirst := near_of_band hband ht₀ ht'
  have hfirst' := near_of_band hband ht' ht₀
  have hnear := near_of_band hband ht ht'
  have hnear' := near_of_band hband ht' ht
  clear hband ht₀ ht ht'
  grind [sensorLevel]

end

/-! ## What a reading does -/

/-- The tick falls back to the sensor, and the sensor reads `t`. -/
structure SensorReads (r : ThermalReading) (t : ℚ) : Prop where
  noFile : r.file.filter (·.fresh r.nowSec) = none
  sensor : r.sensor = some t
  valid : validTemp t = true

theorem SensorReads.filter {r : ThermalReading} {t : ℚ} (h : SensorReads r t) :
    r.sensor.filter validTemp = some t := by
  rw [h.sensor, Option.filter_some, if_pos h.valid]

def Settings.dvfs (s : Settings) : Bool × Int := (s.pmInitialized, s.cpuDvfsStage)

/-- The stage behind a reading; the first one starts from stage 0. -/
def dvfsRead (p : Bool × Int) (t : ℚ) : Bool × Int :=
  (true, nextDvfs (if p.1 then p.2 else 0) t)

/-- `m` leaves fan and processor stage alone. -/
abbrev LeavesCooling {α : Type} (m : Work α) : Prop :=
  Frame (fun w : RadioWorker ↦ (w.fanOn, w.toSettings.dvfs)) (fun _ _ ↦ True) m

namespace LeavesCooling

theorem call (op : RadioOp) : LeavesCooling (radioCall op) := Frame.issue fun _ ↦ trivial

theorem of_scanOnly {α : Type} {m : Work α} (h : ScanOnly m) : LeavesCooling m :=
  Frame.comp (f := fun w : RadioWorker ↦ w.toSettings.noScan) (fun s ↦ (s.fanOn, s.dvfs))
    (fun _ _ _ ↦ trivial) h

theorem rules : GuardRules fun m ↦ LeavesCooling m where
  pure := Frame.pure
  read := Frame.read
  bind := Frame.bind
  standby := of_scanOnly Scans.standby.scanOnly
  arm := of_scanOnly Scans.armReceive.scanOnly
  freq hz st := of_scanOnly (Scans.setFrequency hz st).scanOnly
  power _ st := (call _).bind fun _ ↦
    Frame.ite (Frame.updating rfl (Frame.pure st)) (Frame.pure st)
  start _ := call _
  store _ := Frame.update fun _ ↦ rfl
  pin _ _ := Frame.issue fun _ ↦ trivial
  guard hu := Frame.update fun w ↦ by
    obtain ⟨_, _, _, _, _, _, hw⟩ := hu w
    rw [hw]
    rfl

theorem takeLevel (next : Option Int) (io : ThermalInput) : LeavesCooling (takeLevel next io) := by
  refine Frame.read.bind fun w ↦ ?_
  cases next with
  | none => exact Frame.pure ()
  | some level =>
      exact Frame.ite (rules.enterLevel _ _ io (drain_frame (fun _ ↦ rfl) fun _ _ ↦ trivial))
        (Frame.pure ())

end LeavesCooling

theorem sensorTick_cooling (t : ℚ) (w : RadioWorker) :
    ((sensorTick t).run w).state.fanOn = nextFan w.fanOn t ∧
      ((sensorTick t).run w).state.toSettings.dvfs =
        (w.pmInitialized, nextDvfs w.cpuDvfsStage t) := by
  by_cases hfan : nextFan w.fanOn t = w.fanOn <;>
    by_cases hdvfs : nextDvfs w.cpuDvfsStage t = w.cpuDvfsStage <;>
      simp [sensorTick, Settings.dvfs, hfan, hdvfs]

theorem initPm_cooling (w : RadioWorker) :
    (initPm.run w).state.fanOn = w.fanOn ∧
      (initPm.run w).state.toSettings.dvfs =
        (true, if w.pmInitialized then w.cpuDvfsStage else 0) := by
  cases hpm : w.pmInitialized <;> simp [initPm, Settings.dvfs, hpm]

theorem readLevel_cooling {r : ThermalReading} {t : ℚ} (hr : SensorReads r t) (w : RadioWorker) :
    ((readLevel r).run w).state.fanOn = nextFan w.fanOn t ∧
      ((readLevel r).run w).state.toSettings.dvfs = dvfsRead w.toSettings.dvfs t := by
  obtain ⟨hfan, hdvfs⟩ := initPm_cooling w
  obtain ⟨hfan', hdvfs'⟩ := sensorTick_cooling t (initPm.run w).state
  have hpm := congrArg Prod.fst hdvfs
  have hstage := congrArg Prod.snd hdvfs
  have hrun : ((readLevel r).run w).state = ((sensorTick t).run (initPm.run w).state).state := by
    simp [readLevel, hr.noFile, hr.filter]
  rw [hrun, hfan', hdvfs', hfan]
  refine ⟨rfl, ?_⟩
  simp only [Settings.dvfs] at hpm hstage
  rw [hpm, hstage]
  rfl

/-! ## What a call does -/

variable {w : RadioWorker} {c : Call}

/-- A poll that is due reads the sensor, and the temperature is from the band. -/
def OnSensor (lo hi : ℚ) (w : RadioWorker) : Call → Prop
  | .pollOnce io => thermalDue w.toSettings io.nowMs = true →
      ∃ t, SensorReads io.thermal.reading t ∧ t ∈ Set.Icc lo hi
  | _ => True

theorem thermalTick_not_due {now : UInt32} (io : ThermalInput)
    (hdue : thermalDue w.toSettings now = false) : (thermalTick now io).run w = ⟨(), w, []⟩ := by
  simp [thermalTick, hdue]

theorem thermalTick_cooling {now : UInt32} {io : ThermalInput} {t : ℚ}
    (hdue : thermalDue w.toSettings now = true) (hr : SensorReads io.reading t) :
    ((thermalTick now io).run w).state.fanOn = nextFan w.fanOn t ∧
      ((thermalTick now io).run w).state.toSettings.dvfs = dvfsRead w.toSettings.dvfs t := by
  let w₀ : RadioWorker := { w with lastThermalCheckMs := now }
  obtain ⟨hfan, hdvfs⟩ := readLevel_cooling hr w₀
  have hkeep := (LeavesCooling.takeLevel ((readLevel io.reading).run w₀).val io
    ((readLevel io.reading).run w₀).state).1
  have hrun : ((thermalTick now io).run w).state =
      ((takeLevel ((readLevel io.reading).run w₀).val io).run
        ((readLevel io.reading).run w₀).state).state := by
    simp [thermalTick, hdue, w₀]
  rw [hrun]
  exact ⟨(congrArg Prod.fst hkeep).trans hfan, (congrArg Prod.snd hkeep).trans hdvfs⟩

/-- Behind a poll stand fan, stage and level of its tick. -/
theorem poll_ladders (io : PollInput) (w : RadioWorker) :
    (workerStep w (.pollOnce io)).1.fanOn = ((thermalTick io.nowMs io.thermal).run w).state.fanOn ∧
      (workerStep w (.pollOnce io)).1.toSettings.dvfs =
        ((thermalTick io.nowMs io.thermal).run w).state.toSettings.dvfs ∧
      (workerStep w (.pollOnce io)).1.thermalLevel = pollLevel w io := by
  have hsame := (pollOnce_settings io w).1
  have hlevel := (ticked_spec w io).level
  exact ⟨(congrArg Settings.fanOn hsame :), (congrArg Settings.dvfs hsame :),
    ((congrArg Settings.thermalLevel hsame :) : _ = _).trans hlevel⟩

theorem scanOnly_ladders {α : Type} {m : Work α} (h : ScanOnly m) (w : RadioWorker) :
    (m.run w).state.fanOn = w.fanOn ∧ (m.run w).state.toSettings.dvfs = w.toSettings.dvfs ∧
      (m.run w).state.thermalLevel = w.thermalLevel := by
  have hsame := (h w).1
  exact ⟨(congrArg Settings.fanOn hsame :), (congrArg Settings.dvfs hsame :),
    (congrArg Settings.thermalLevel hsame :)⟩

/-- Only a poll moves the ladders. -/
theorem call_ladders (w : RadioWorker) {c : Call} (hc : ∀ io, c ≠ .pollOnce io) :
    (workerStep w c).1.fanOn = w.fanOn ∧
      (workerStep w c).1.toSettings.dvfs = w.toSettings.dvfs ∧
      (workerStep w c).1.thermalLevel = w.thermalLevel := by
  have hdoes := workerStep_does w c
  cases c with
  | applyConfig cfg io =>
      have hkeep := ((LeavesCooling.rules.applyConfig cfg io).discard w).1
      refine ⟨(congrArg Prod.fst hkeep :), (congrArg Prod.snd hkeep :), ?_⟩
      cases hdoes with
      | config h => exact h.sweep.2.2
  | startScan p now freqSt =>
      exact scanOnly_ladders (Scans.startScan p now freqSt).scanOnly w
  | enqueueTx frame =>
      exact scanOnly_ladders (KeepsSettings.enqueueTx frame).scanOnly.discard w
  | pollOnce io => exact absurd rfl (hc io)

/-- A call leaves the three ladders alone, or each reads the same temperature. -/
theorem ladders_step (hc : OnSensor lo hi w c) :
    RestsOrReads nextFan (· ∈ Set.Icc lo hi) w.fanOn (workerStep w c).1.fanOn ∧
      RestsOrReads dvfsRead (· ∈ Set.Icc lo hi) w.toSettings.dvfs
        (workerStep w c).1.toSettings.dvfs ∧
      RestsOrReads sensorLevel (· ∈ Set.Icc lo hi) w.thermalLevel
        (workerStep w c).1.thermalLevel := by
  by_cases hpoll : ∃ io, c = .pollOnce io
  case neg =>
    obtain ⟨hfan, hdvfs, hlevel⟩ := call_ladders w (not_exists.mp hpoll)
    exact ⟨.inl hfan, .inl hdvfs, .inl hlevel⟩
  obtain ⟨io, rfl⟩ := hpoll
  obtain ⟨hfan, hdvfs, hlevel⟩ := poll_ladders io w
  rw [hfan, hdvfs, hlevel]
  cases hdue : thermalDue w.toSettings io.nowMs
  · rw [thermalTick_not_due io.thermal hdue]
    refine ⟨.inl rfl, .inl rfl, .inl ?_⟩
    rw [pollLevel, nextLevel, hdue]
    rfl
  · obtain ⟨t, hr, ht⟩ := hc hdue
    obtain ⟨hfan, hdvfs⟩ := thermalTick_cooling hdue hr
    refine ⟨.inr ⟨t, ht, hfan⟩, .inr ⟨t, ht, hdvfs⟩, .inr ⟨t, ht, ?_⟩⟩
    rw [pollLevel, nextLevel, hdue, if_pos rfl, levelRead, hr.noFile, hr.filter]
    rfl

/-! ## Runs -/

theorem dvfsRead_settles {t₀ t t' : ℚ} (hband : hi - lo < 3) (p : Bool × Int)
    (ht₀ : t₀ ∈ Set.Icc lo hi) (ht : t ∈ Set.Icc lo hi) (ht' : t' ∈ Set.Icc lo hi)
    (hmoved : dvfsRead (dvfsRead p t₀) t ≠ dvfsRead p t₀) :
    dvfsRead (dvfsRead (dvfsRead p t₀) t) t' = dvfsRead (dvfsRead p t₀) t := by
  refine congrArg (Prod.mk true) (dvfs_ladder.settles hband ht₀ ht ht' ?_)
  exact fun hsame ↦ hmoved (congrArg (Prod.mk true) hsame)

/-- While the sensor's readings stay within three degrees, fan, processor stage and thermal
level change at most twice each, whatever else the worker is called for. -/
theorem ladders_settle (w : RadioWorker) (calls : List Call) {lo hi : ℚ} (hband : hi - lo < 3)
    (hcalls : Along workerStep (OnSensor lo hi) w calls) :
    changes w.cpuDvfsStage ((trail workerStep w calls).map (·.cpuDvfsStage)) ≤ 2 ∧
      changes w.fanOn ((trail workerStep w calls).map (·.fanOn)) ≤ 2 ∧
      changes w.thermalLevel ((trail workerStep w calls).map (·.thermalLevel)) ≤ 2 := by
  refine ⟨?_, ?_, ?_⟩
  · have hpair := changes_le_two (a := w.toSettings.dvfs)
      (fun _ _ _ ht₀ ht ht' ↦ dvfsRead_settles hband w.toSettings.dvfs ht₀ ht ht')
      (hcalls.trail_chain (fun w ↦ w.toSettings.dvfs) fun w c hc ↦ (ladders_step hc).2.1)
    have hstage := changes_map_le Prod.snd w.toSettings.dvfs
      ((trail workerStep w calls).map fun w ↦ w.toSettings.dvfs)
    rw [List.map_map] at hstage
    exact hstage.trans hpair
  · exact changes_le_two
      (fun _ _ _ _ ht ht' ↦ nextFan_settles hband ht ht' w.fanOn)
      (hcalls.trail_chain (fun w ↦ w.fanOn) fun w c hc ↦ (ladders_step hc).1)
  · exact changes_le_two
      (fun _ _ _ ht₀ ht ht' ↦ sensorLevel_settles hband ht₀ ht ht' w.thermalLevel)
      (hcalls.trail_chain (fun w ↦ w.thermalLevel) fun w c hc ↦ (ladders_step hc).2.2)

def pollSensor (now : UInt32) (t : ℚ) : PollInput where
  nowMs := now
  thermal := { reading := { sensor := some t } }
  burst := ⟨0, 0, fun _ _ ↦ ⟨0, 0, []⟩⟩

/-- Around the threshold of stage 1. -/
def warmingUp : List Call :=
  [.pollOnce (pollSensor 1 49), .pollOnce (pollSensor 4001 50), .pollOnce (pollSensor 8001 48)]

theorem ladders_settle_warming :
    changes (-1) ((trail workerStep {} warmingUp).map (·.cpuDvfsStage)) ≤ 2 ∧
      changes false ((trail workerStep {} warmingUp).map (·.fanOn)) ≤ 2 ∧
      changes 0 ((trail workerStep {} warmingUp).map (·.thermalLevel)) ≤ 2 := by
  refine ladders_settle {} warmingUp (show (50 : ℚ) - 48 < 3 by norm_num) ⟨?_, ?_, ?_, trivial⟩
  · exact fun _ ↦ ⟨49, ⟨rfl, rfl, by decide⟩, by norm_num⟩
  · exact fun _ ↦ ⟨50, ⟨rfl, rfl, by decide⟩, by norm_num⟩
  · exact fun _ ↦ ⟨48, ⟨rfl, rfl, by decide⟩, by norm_num⟩

-- Two changes there are: out of the start, and up to stage 1, where it stays.
example : (trail workerStep {} warmingUp).map (·.cpuDvfsStage) = [0, 1, 1] := by decide +kernel

end RadioService
