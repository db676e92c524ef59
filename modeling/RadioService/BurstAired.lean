import RadioService.BurstRoundTrip
import RadioService.Emissions
import RadioService.TxTerminals

/-!
# A confirmed frame was aired whole

Behind every `G` of a transmission stands one attempt for each packet whose
`TX_DONE` was read in time, packet by packet in the order of the payload.
-/

namespace RadioService

open Burst Traced Serial

/-! ## Attempts -/

/-- What `startTransmit` hands to the radio. -/
def Effect.started? : Effect → Option (TxFrame × List UInt8)
  | .radio (.startTransmit frame pkt _) => some (frame, pkt)
  | _ => none

def irqReads (polls : List TxPoll) : List Effect :=
  polls.map fun p ↦ .radio (.getClearIrqStatus p.irq)

/-- The stretch of a burst that airs one packet. -/
structure PacketAired (frame : TxFrame) (pkt : List UInt8) (attempt : ℕ → Attempt)
    (segment : List Effect) : Prop where
  only : ∀ p ∈ segment.filterMap Effect.started?, p = (frame, pkt)
  tries : (segment.filterMap Effect.started?).length ≤ 3
  /-- At its end a start without error, then only the IRQ words of that attempt,
  one of them with `TX_DONE` and read before the deadline. -/
  confirmed : ∃ k < 3, ∃ earlier polls,
    segment = earlier ++ .radio (.startTransmit frame pkt errNone) ::
      (irqReads polls ++ [.radio .finishTransmit]) ∧
    (attempt k).st = errNone ∧ polls <+: (attempt k).polls ∧
    ∃ p ∈ polls, before p.now ((attempt k).startMs + 25) = true ∧ irqHas p.irq irqTxDone = true

theorem pollsMade_isPrefix (deadline : UInt32) (polls : List TxPoll) :
    pollsMade deadline polls <+: polls := by
  induction polls with
  | nil => exact List.prefix_rfl
  | cons p ps ih =>
      unfold pollsMade
      split
      · split
        · exact ⟨ps, rfl⟩
        · exact List.cons_prefix_cons.mpr ⟨rfl, ih⟩
      · exact List.nil_prefix

theorem before_of_mem_pollsMade {deadline : UInt32} {polls : List TxPoll} {p : TxPoll}
    (h : p ∈ pollsMade deadline polls) : before p.now deadline = true := by
  induction polls with
  | nil => cases h
  | cons q qs ih =>
      unfold pollsMade at h
      split at h
      · rcases List.mem_cons.mp h with rfl | h
        · assumption
        · split at h
          · cases h
          · exact ih h
      · cases h

/-- The attempts end with the first that is confirmed. -/
theorem attemptsMade_of_done {attempt : ℕ → Attempt} {k n : ℕ}
    (h : packetDone attempt k n = true) :
    ∃ js j, attemptsMade attempt k n = js ++ [j] ∧ j < k + n ∧ (attempt j).done = true := by
  induction n generalizing k with
  | zero => cases h
  | succ n ih =>
      by_cases hk : (attempt k).done = true
      · exact ⟨[], k, by simp [attemptsMade, hk], by omega, hk⟩
      have hrest : packetDone attempt (k + 1) n = true := by
        simpa [packetDone, attemptsMade, hk] using h
      obtain ⟨js, j, hmade, hj, hdone⟩ := ih hrest
      exact ⟨k :: js, j, by simp [attemptsMade, hk, hmade], by omega, hdone⟩

theorem length_attemptsMade (attempt : ℕ → Attempt) (k n : ℕ) :
    (attemptsMade attempt k n).length ≤ n := by
  induction n generalizing k with
  | zero => exact le_rfl
  | succ n ih =>
      rw [attemptsMade, List.length_cons]
      split
      · exact Nat.succ_le_succ (Nat.zero_le n)
      · exact Nat.succ_le_succ (ih (k + 1))

theorem Attempt.effects_started (a : Attempt) (frame : TxFrame) (pkt : List UInt8) (k : ℕ) :
    (a.effects frame pkt k).filterMap Effect.started? = [(frame, pkt)] := by
  by_cases hk : k > 0 <;> by_cases hst : a.st = errNone <;>
    simp [Attempt.effects, hk, hst, Effect.started?, List.filterMap_cons, List.filterMap_map,
      Function.comp_def]

theorem packetEffects_started (frame : TxFrame) (pkt : List UInt8) (attempt : ℕ → Attempt)
    (k n : ℕ) :
    (packetEffects frame pkt attempt k n).filterMap Effect.started? =
      List.replicate (attemptsMade attempt k n).length (frame, pkt) := by
  unfold packetEffects
  induction attemptsMade attempt k n with
  | nil => rfl
  | cons j js ih =>
      rw [List.flatMap_cons, List.filterMap_append, ih, Attempt.effects_started]
      rfl

theorem packetAired {frame : TxFrame} {pkt : List UInt8} {attempt : ℕ → Attempt}
    (h : packetDone attempt 0 3 = true) :
    PacketAired frame pkt attempt (packetEffects frame pkt attempt 0 3) := by
  have hstarted := packetEffects_started frame pkt attempt 0 3
  refine ⟨fun p hp ↦ ?_, ?_, ?_⟩
  · rw [hstarted] at hp
    exact List.eq_of_mem_replicate hp
  · rw [hstarted, List.length_replicate]
    exact length_attemptsMade attempt 0 3
  · obtain ⟨js, j, hmade, hj, hdone⟩ := attemptsMade_of_done h
    have hst := Attempt.st_of_done hdone
    have hpolled : (attempt j).polled = pollsMade ((attempt j).startMs + 25) (attempt j).polls :=
      if_pos hst
    obtain ⟨p, hp, htxDone⟩ := List.any_eq_true.mp hdone
    refine ⟨j, by omega, (js.flatMap fun k ↦ (attempt k).effects frame pkt k) ++
      if j > 0 then [.radio .standby] else [], (attempt j).polled, ?_, hst, ?_, p, hp, ?_, htxDone⟩
    · simp [packetEffects, hmade, Attempt.effects, hst, irqReads]
    · rw [hpolled]
      exact pollsMade_isPrefix _ _
    · rw [hpolled] at hp
      exact before_of_mem_pollsMade hp

/-! ## Bursts -/

theorem burstEffects_radio {frame : TxFrame} {io : BurstInput} {id : UInt16} {e : Effect}
    (he : e ∈ burstEffects frame io id) : onWorkerEffect e = [] := by
  simp only [burstEffects, packetEffects, List.mem_flatMap] at he
  obtain ⟨idx, -, k, -, he⟩ := he
  have hattempt : ∃ op, e = .radio op := by
    by_cases hk : k > 0 <;> by_cases hst : (io.attempt idx k).st = errNone <;>
      simp [Attempt.effects, hk, hst] at he <;> grind
  obtain ⟨op, rfl⟩ := hattempt
  rfl

theorem armEffects_radio (s : Settings) :
    (armEffects s).flatMap onWorkerEffect = [] ∧
      (armEffects s).filterMap Effect.started? = [] := by
  unfold armEffects
  split <;> exact ⟨rfl, rfl⟩

theorem burstEffects_of_done {frame : TxFrame} {io : BurstInput} {id : UInt16}
    (h : burstDone io frame.payload.length = true) :
    burstEffects frame io id = (List.range (burstTotal frame.payload.length).toNat).flatMap
      fun idx ↦ packetEffects frame (burstPacket frame.payload id idx) (io.attempt idx) 0 3 := by
  rw [burstDone, Bool.and_eq_true, Bool.not_eq_true'] at h
  rw [burstEffects, burstPackets, h.1, if_neg Bool.false_ne_true, packetsMade_of_allDone h.2,
    List.range_eq_range']

theorem length_of_burstSize {len : ℕ} (h : badBurstSize len = false) :
    1 ≤ (burstTotal len).toNat ∧ len ≤ 24576 := by
  rw [badBurstSize, Bool.or_eq_false_iff, Bool.or_eq_false_iff] at h
  obtain ⟨⟨hzero, -⟩, hmax⟩ := h
  constructor
  · rw [Nat.one_le_iff_ne_zero]
    intro h₀
    have htotal : burstTotal len = 0 := UInt16.toNat_inj.mp h₀
    simp [htotal] at hzero
  · exact not_lt.mp (of_decide_eq_false hmax)

theorem serviceTxQueue_run (io : BurstInput) {w : RadioWorker} {frame : TxFrame}
    {rest : List TxFrame} (hgate : txGateClosed w = false) (hq : w.txQ = frame :: rest) :
    let w₁ : RadioWorker := { w with
      txQ := rest, st := { w.st with pendingTxValid := if rest.length > 0 then 1 else 0 } }
    let o := (burstFrame frame io).run w₁
    ((serviceTxQueue io).run w).state = o.state ∧
      ((serviceTxQueue io).run w).events =
        o.events ++ [.onTxTerminal frame (burstTerminal o.val)] := by
  simp [serviceTxQueue, popFrame, hgate, hq, Outcome.events]

theorem burstDone_of_ready {io : BurstInput} {w : RadioWorker} {frame : TxFrame}
    {rest : List TxFrame} (hgate : txGateClosed w = false) (hq : w.txQ = frame :: rest)
    (hready : .ready 511 ∈ ((serviceTxQueue io).run w).events.flatMap onWorkerEffect) :
    burstDone io frame.payload.length = true := by
  obtain ⟨-, hevents⟩ := serviceTxQueue_run io hgate hq
  obtain ⟨hval, hburst, -⟩ := burstFrame_run frame io { w with
    txQ := rest, st := { w.st with pendingTxValid := if rest.length > 0 then 1 else 0 } }
  have hsilent : (burstEffects frame io
      (burstId io.tvSec io.tvNsec w.burstIdCounter)).flatMap onWorkerEffect = [] :=
    List.flatMap_eq_nil_iff.mpr fun e he ↦ burstEffects_radio he
  rw [hevents, hburst, hval] at hready
  simp only [List.flatMap_append, hsilent, (armEffects_radio _).1] at hready
  have hok : burstTerminal (burstDone io frame.payload.length) = .kOk := by
    simpa [onWorkerEffect, @eq_comm _ (Emission.ready 511), onWorkerTerminal_eq_ready]
      using hready
  by_contra hnot
  simp [burstTerminal, hnot] at hok

/-- A `G` written for a transmission: the burst aired every packet of the frame,
in order and nothing else, and the counters count it. -/
theorem ready_means_aired (io : BurstInput) (w : RadioWorker)
    (hready : .ready 511 ∈ ((serviceTxQueue io).run w).events.flatMap onWorkerEffect) :
    ∃ frame ∈ w.txQ.head?,
      let o := (serviceTxQueue io).run w
      let total := (burstTotal frame.payload.length).toNat
      let id := burstId io.tvSec io.tvNsec w.burstIdCounter
      total = (frame.payload.length + 494) / 495 ∧ 1 ≤ total ∧
      (∃ (segments : ℕ → List Effect) (tail : List Effect),
        o.events = .radio .standby :: (List.range total).flatMap segments ++ tail ++
          [.onTxTerminal frame .kOk] ∧
        (∀ idx < total, PacketAired frame (burstPacket frame.payload id idx) (io.attempt idx)
          (segments idx)) ∧
        tail.filterMap Effect.started? = []) ∧
      o.state.st.packetsTx = w.st.packetsTx + UInt32.ofNat total ∧
      o.state.st.burstsTx = w.st.burstsTx + 1 := by
  cases hgate : txGateClosed w with
  | true => simp [serviceTxQueue, hgate, Outcome.events] at hready
  | false =>
    cases hq : w.txQ with
    | nil => simp [serviceTxQueue, popFrame, hgate, hq, Outcome.events] at hready
    | cons frame rest =>
      refine ⟨frame, rfl, ?_⟩
      obtain ⟨hstate, hevents⟩ := serviceTxQueue_run io hgate hq
      obtain ⟨hval, hburst, hcounts⟩ := burstFrame_run frame io { w with
        txQ := rest, st := { w.st with pendingTxValid := if rest.length > 0 then 1 else 0 } }
      have hdone := burstDone_of_ready hgate hq hready
      have hsize : badBurstSize frame.payload.length = false := (burstDone_iff.mp hdone).1
      obtain ⟨hpos, hmax⟩ := length_of_burstSize hsize
      obtain ⟨hbursts, hpackets⟩ := hcounts (hval.trans hdone)
      let segments : ℕ → List Effect := fun idx ↦ packetEffects frame (burstPacket frame.payload
        (burstId io.tvSec io.tvNsec w.burstIdCounter) idx) (io.attempt idx) 0 3
      refine ⟨burstTotal_toNat hmax, hpos, ⟨segments, armEffects w.toSettings, ?_,
        fun idx hidx ↦ ?_, (armEffects_radio w.toSettings).2⟩, ?_, ?_⟩
      · rw [hevents, hburst, hval, hdone, burstEffects_of_done hdone]
        rfl
      · refine packetAired ?_
        obtain ⟨k, hk, hattempt⟩ := (burstDone_iff.mp hdone).2 idx hidx
        exact packetDone_iff.mpr ⟨k, Nat.zero_le k, by omega, hattempt⟩
      · rw [hstate]
        exact hpackets
      · rw [hstate]
        exact hbursts

/-- A one-byte frame whose second attempt is confirmed. -/
theorem ready_means_aired_retry :
    let io : BurstInput :=
      { tvSec := 0, tvNsec := 7
        attempt := fun _ k ↦ ⟨0, 100, if k = 1 then [⟨101, 0⟩, ⟨102, irqTxDone⟩] else []⟩ }
    let w : RadioWorker := { radioOk := true, txQ := [⟨0, [1]⟩] }
    ((serviceTxQueue io).run w).state.st.packetsTx = 1 := by
  intro io w
  obtain ⟨frame, hframe, -, -, -, hpackets, -⟩ := ready_means_aired io w (by decide)
  cases hframe
  rw [hpackets]
  decide

end RadioService
