import RadioService.Service
import RadioService.Setup

/-!
# The gates of the transmitter

`serviceTxQueue` looks at the role, the scan and the thermal level once, and the
burst behind it runs for many packets.  Nothing in a burst changes what was
looked at, and nothing else starts a transmission.
-/

namespace RadioService

open Burst Traced Machine

/-- A transmission is being started. -/
def Effect.starts : Effect → Bool
  | .radio (.startTransmit _ _ _) => true
  | _ => false

/-- A start meets open gates: no scan, a role that transmits, no cutoff. -/
def StartsGated (p : RadioWorker × Effect) : Prop :=
  p.2.starts = true → p.1.scanActive = false ∧ p.1.cfg.role ≠ 2 ∧ p.1.thermalLevel < 2

abbrev Startless {α : Type} (m : Work α) : Prop :=
  Frame (fun _ : RadioWorker ↦ ()) (fun _ e ↦ e.starts = false) m

/-- Every transmission that `m` starts meets open gates. -/
abbrev Gated {α : Type} (m : Work α) : Prop := ∀ w, Logs StartsGated m w

theorem Startless.of_frame {τ α : Type} {f : RadioWorker → τ} {ok : τ → Effect → Prop}
    {m : Work α} (h : Frame f ok m)
    (hok : ∀ t frame pkt st, ¬ok t (.radio (.startTransmit frame pkt st))) : Startless m := by
  refine Frame.comp (fun _ ↦ ()) (fun t e he ↦ ?_) h
  unfold Effect.starts
  split
  · exact absurd he (hok t _ _ _)
  · rfl

theorem Startless.gated {α : Type} {m : Work α} (h : Startless m) : Gated m :=
  fun _ ↦ Logs.of_frame h fun _ _ he hstarts ↦ absurd (hstarts.symm.trans he) (by decide)

/-! ## What starts nothing -/

theorem SetsUp.startless {α : Type} {m : Work α} (h : SetsUp m) : Startless m :=
  Startless.of_frame h fun _ _ _ _ ↦ Bool.false_ne_true

theorem Scans.startless {α : Type} {m : Work α} (h : Scans m) : Startless m :=
  Startless.of_frame h fun _ _ _ _ ↦ Bool.false_ne_true

theorem RxOnly.startless {α : Type} {m : Work α} (h : RxOnly m) : Startless m :=
  Startless.of_frame h fun _ _ _ _ ↦ Bool.false_ne_true

namespace Startless

theorem thermalTick (now : UInt32) (io : ThermalInput) : Startless (thermalTick now io) := by
  have hrules : GuardRules fun m ↦ Startless m := SetsUp.rules.lift Frame.bind SetsUp.startless
  exact hrules.thermalTick now io (Frame.update fun _ ↦ rfl)
    (readLevel_sensorOnly io.reading).setsUp.startless (drain_frame (fun _ ↦ rfl) fun _ _ ↦ rfl)

theorem popFrame : Startless popFrame := popFrame_frame fun _ _ _ ↦ rfl

theorem enqueueTx (frame : TxFrame) : Startless (enqueueTx frame) :=
  enqueueTx_frame (fun _ _ _ ↦ rfl) frame

end Startless

/-! ## The gates -/

/-- A burst leaves the gates alone, so every packet and retry of it meets them. -/
theorem burstFrame_gated (frame : TxFrame) (io : BurstInput) {w : RadioWorker}
    (hw : txGateClosed w = false) : Logs StartsGated (burstFrame frame io) w := by
  refine Logs.of_frame (TxOnly.burstFrame frame io) fun p hp _ _ ↦ ?_
  have hsame : p.1.toSettings = w.toSettings := congrArg Prod.fst hp
  rw [hsame]
  simp only [txGateClosed, Bool.or_eq_false_iff, beq_eq_false_iff_ne, ge_iff_le,
    decide_eq_false_iff_not, not_le] at hw
  exact ⟨hw.1.2, hw.1.1, hw.2⟩

theorem serviceTxQueue_gated (io : BurstInput) : Gated (serviceTxQueue io) := by
  intro w
  refine Logs.bind (Logs.pure w) (Logs.ite (fun _ ↦ Logs.pure ()) fun hopen ↦ ?_)
  rw [Bool.not_eq_true] at hopen
  have hsame := (KeepsSettings.popFrame w).1
  refine (Startless.popFrame.gated w).bind ?_
  have hopen' : txGateClosed (popFrame.run w).state = false := by
    rw [← hopen, txGateClosed, hsame]
    rfl
  cases (popFrame.run w).val with
  | none => exact Logs.pure ()
  | some frame =>
      refine (burstFrame_gated frame io hopen').bind (Logs.issue fun hstarts ↦ ?_)
      exact absurd hstarts Bool.false_ne_true

theorem afterScan_gated (io : PollInput) : Gated (afterScan io) := by
  have hservice : ∀ w' : RadioWorker, Gated (do
      if !w'.scanActive then
        serviceTxQueue io.burst : Work Unit) :=
    fun w' w ↦ Logs.ite (fun _ ↦ serviceTxQueue_gated io.burst w) fun _ ↦ Logs.pure ()
  intro w
  refine Logs.bind (Logs.pure w) (Logs.ite (fun _ ↦ Logs.pure ()) fun _ ↦ ?_)
  refine Logs.ite (fun _ ↦ hservice w w) fun _ ↦ ?_
  exact ((RxOnly.rxLoop io.rx {}).startless.gated w).bind (Logs.bind (Logs.pure _) (hservice _ _))

theorem pollOnce_gated (io : PollInput) : Gated (pollOnce io) := by
  rw [pollOnce_eq]
  intro w
  refine ((Startless.thermalTick io.nowMs io.thermal).gated w).bind ?_
  refine Logs.bind (Logs.pure _) (Logs.ite (fun _ ↦ Logs.pure ()) fun _ ↦ ?_)
  refine Logs.ite (fun _ ↦ ?_) fun _ ↦ afterScan_gated io _
  exact ((Scans.scanTick io.nowMs io.scanFreqSt).startless.gated _).bind (afterScan_gated io _)

theorem exec_gated (c : Call) : Gated c.exec := by
  cases c with
  | applyConfig cfg io => exact (SetsUp.startless (SetsUp.rules.applyConfig cfg io).discard).gated
  | startScan p now freqSt => exact (Scans.startScan p now freqSt).startless.gated
  | enqueueTx frame => exact Startless.gated (Startless.enqueueTx frame).discard
  | pollOnce io => exact pollOnce_gated io

theorem run_gated (w : RadioWorker) (calls : List Call) :
    ∀ p ∈ (run workerStep w calls).2, StartsGated p :=
  forall_mem_run.mpr (Along.of_invariant (c := fun _ _ ↦ True) (I := fun _ ↦ True)
    (fun _ _ _ _ ↦ trivial) (fun w c _ _ ↦ exec_gated c w) trivial
    (Along.of_forall (fun _ _ _ ↦ trivial) w))

namespace Serial

/-- Whatever the host sends and the radio answers: the calls of the superloop
into the worker start every packet of every burst with the gates open. -/
theorem service_gated (tcp : Bool) (now : UInt32) (io : InitInput) (is : List ServiceStep) :
    let boot := Service.boot tcp now io
    ∃ calls, (run workerStep boot.worker calls).1 = (run serviceStep boot is).1.worker ∧
      (run workerStep boot.worker calls).2.map Prod.snd = effects (run serviceStep boot is).2 ∧
      ∀ p ∈ (run workerStep boot.worker calls).2, StartsGated p := by
  intro boot
  obtain ⟨calls, hworker, hevents⟩ := callsWorker.run boot is
  exact ⟨calls, hworker, hevents, run_gated boot.worker calls⟩

end Serial

end RadioService
