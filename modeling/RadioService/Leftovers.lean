import Mathlib.Data.UInt
import RadioService.Scanless

/-!
# What polls bring out

A frame in the queue and a scan under way do not stay unnoticed: a poll at the
end of a dwell reports a channel, and a cutoff drains the queue.  Both levels
can be had from the state file.
-/

namespace RadioService

open Burst Traced

variable {w : RadioWorker} {now : UInt32}

/-- With the state file at hand the sensor is not read. -/
theorem thermalTick_file (level : Int) (hdue : thermalDue w.toSettings now = true) :
    (thermalTick now (pollAt now level).thermal).run w =
      (takeLevel (some level) (pollAt now level).thermal).run
        { w with lastThermalCheckMs := now } := by
  have hvalid : validTemp 60 = true := by decide +kernel
  have hfile : (pollAt now level).thermal.reading.file.filter
      (·.fresh (pollAt now level).thermal.reading.nowSec) = some ⟨2, level, 60, 0⟩ :=
    Option.filter_eq_some_iff.mpr ⟨rfl, by simp [ThermalFile.fresh, pollAt, hvalid]⟩
  have hread : readLevel (pollAt now level).thermal.reading = return some level := by
    unfold readLevel
    rw [hfile]
  simp [thermalTick, hdue, hread]

theorem tick_throttled (hdue : thermalDue w.toSettings now = true) :
    ∃ dbm, ((thermalTick now (pollAt now 1).thermal).run w).state.toSettings =
      { w.toSettings with
        thermalLevel := 1, lastThermalCheckMs := now, chipPowerDbm := dbm } := by
  rw [thermalTick_file 1 hdue]
  by_cases hlevel : w.thermalLevel = 1
  · refine ⟨w.chipPowerDbm, ?_⟩
    rw [← hlevel]
    simp [takeLevel]
  let w₀ : RadioWorker := { w with lastThermalCheckMs := now }
  let io := (pollAt now 1).thermal
  have henter : (takeLevel (some 1) io).run w₀ = (enterLevel w.thermalLevel 1 io).run w₀ := by
    simp [takeLevel, w₀, Ne.symm hlevel]
  rw [henter]
  by_cases hon : w.radioOk = true ∧ w.thermalPoweredDown = false
  · have hdoes := enterLevel_throttle w.thermalLevel
      (throttle_on (s := { w₀.toSettings with thermalLevel := 1 }) io hon.1 hon.2)
    exact ⟨kThrottledTxPowerDbm, (hdoes w₀ rfl).2.1⟩
  · have hoff : w.radioOk = false ∨ w.thermalPoweredDown = true := by
      rwa [not_and_or, Bool.not_eq_true, Bool.not_eq_false] at hon
    have hdoes := enterLevel_throttle w.thermalLevel
      (throttle_off (s := { w₀.toSettings with thermalLevel := 1 }) io hoff)
    exact ⟨w.chipPowerDbm, (hdoes w₀ rfl).2.1⟩

theorem poll_throttled (hdue : thermalDue w.toSettings now = true) :
    ((pollOnce (pollAt now 1)).run w).state.thermalLevel = 1 ∧
      ((pollOnce (pollAt now 1)).run w).state.lastThermalCheckMs = now := by
  obtain ⟨dbm, htick⟩ := tick_throttled hdue
  have hsame := (pollOnce_settings (pollAt now 1) w).1
  rw [show (pollAt now 1).nowMs = now from rfl, htick] at hsame
  exact ⟨congrArg Settings.thermalLevel hsame, congrArg Settings.lastThermalCheckMs hsame⟩

theorem poll_reports (hdue : thermalDue w.toSettings now = true) (hactive : w.scanActive = true)
    (hdwell : before now w.scanDwellUntil = false) :
    ∃ p ∈ ((pollOnce (pollAt now 1)).run w).log, p.2.isResult = true := by
  obtain ⟨dbm, htick⟩ := tick_throttled hdue
  let w₁ := ((thermalTick now (pollAt now 1).thermal).run w).state
  have hlevel : w₁.thermalLevel = 1 := congrArg Settings.thermalLevel htick
  have hactive₁ : w₁.scanActive = true := (congrArg Settings.scanActive htick).trans hactive
  have hdwell₁ : before now w₁.scanDwellUntil = false :=
    (congrArg (fun s : Settings ↦ before now s.scanDwellUntil) htick).trans hdwell
  have hafter : (afterTick (pollAt now 1)).run w₁ =
      (scanTick now 0 >>= fun _ ↦ afterScan (pollAt now 1)).run w₁ := by
    simp [afterTick, hlevel, hactive₁, pollAt]
  let e := Effect.onScanResult (channelHz w₁.scan w₁.scanIdx) w₁.scanFrames w₁.scanConsensus
    w₁.scanBestRssi
  have hreport : (w₁, e) ∈ ((scanTick now 0).run w₁).log := by
    simp [scanTick, hdwell₁, e]
  refine ⟨(w₁, e), ?_, rfl⟩
  rw [pollOnce_eq, run_bind, Outcome.prepend_log]
  refine List.mem_append_right _ ?_
  change (w₁, e) ∈ ((afterTick (pollAt now 1)).run w₁).log
  rw [hafter, run_bind, Outcome.prepend_log]
  exact List.mem_append_left _ hreport

theorem poll_drains (hdue : thermalDue w.toSettings now = true) (hlevel : w.thermalLevel = 1) :
    ((pollOnce (pollAt now 2)).run w).state.txQ = [] := by
  let w₀ : RadioWorker := { w with lastThermalCheckMs := now }
  let io := (pollAt now 2).thermal
  have htick : (thermalTick now io).run w = (enterLevel 1 2 io).run w₀ := by
    rw [thermalTick_file 2 hdue]
    simp [takeLevel, hlevel, w₀, io]
  have hcut : ((enterLevel 1 2 io).run w₀).state.thermalLevel = 2 := by
    rw [(enterLevel_cutoff 1 io w₀.toSettings w₀ rfl).2.1]
  have hdrained : ((enterLevel 1 2 io).run w₀).state.txQ = [] := by
    simp [enterLevel, drainTxQ, reportDropped]
  rw [pollOnce_eq, run_bind, Outcome.prepend_state]
  change ((afterTick (pollAt now 2)).run ((thermalTick now io).run w).state).state.txQ = []
  rw [htick, afterTick_cut _ (by rw [hcut]), hdrained]

/-- Some clock is due for the thermal tick and not before a given time. -/
theorem exists_due (s : Settings) (t : UInt32) :
    ∃ now, thermalDue s now = true ∧ before now t = false := by
  by_cases hdue : t - s.lastThermalCheckMs ≥ 4000
  · exact ⟨t, by simp [thermalDue, hdue], by simp [before]⟩
  refine ⟨t + 4000, ?_, ?_⟩
  · have hlater : t + 4000 - s.lastThermalCheckMs = t - s.lastThermalCheckMs + 4000 :=
      add_sub_right_comm _ _ _
    have hge : t - s.lastThermalCheckMs + 4000 ≥ 4000 := by
      rw [ge_iff_le, UInt32.le_iff_toNat_le] at hdue ⊢
      rw [UInt32.toNat_add]
      have hbound : (4000 : UInt32).toNat = 4000 := rfl
      omega
    simp [thermalDue, hlater, hge]
  · have hwait : t + 4000 - t = 4000 := add_sub_cancel_left _ _
    simp [before, hwait]

end RadioService
