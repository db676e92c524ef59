import RadioService.RxRules
import RadioService.TxRules

/-!
# What traffic leaves alone

Receiving and transmitting never touch the settings of the worker, nor what
the chip was told about frequency and power, nor the queue, and issue no effect
outside of their own.
-/

namespace RadioService

open Burst Traced

def Effect.receiving : Effect → Bool
  | .radio .startReceive | .radio (.getClearIrqStatus _) | .radio (.getRxFifoLevel _)
  | .radio (.getPacketStatusFLRC _) | .radio (.readData _ _ _) | .radio .clearRxBuffer
  | .onRxPacket _ _ => true
  | _ => false

def Effect.transmitting (frame : TxFrame) : Effect → Bool
  | .radio (.startTransmit f _ _) => f = frame
  | .radio .standby | .radio .startReceive | .radio .finishTransmit
  | .radio (.getClearIrqStatus _) => true
  | _ => false

def Effect.traffic : Effect → Bool
  | .radio (.startTransmit _ _ _) | .radio .standby | .radio .finishTransmit
  | .onTxTerminal _ _ => true
  | e => e.receiving

/-- `m` leaves the settings and the queue alone and issues only effects of the
kind `k`. -/
abbrev Moves (k : Effect → Bool) {α : Type} (m : Work α) : Prop :=
  Frame (fun w : RadioWorker ↦ (w.toSettings, w.txQ)) (fun _ e ↦ k e = true) m

abbrev RxOnly {α : Type} (m : Work α) : Prop := Moves Effect.receiving m

abbrev TxOnly (frame : TxFrame) {α : Type} (m : Work α) : Prop :=
  Moves (Effect.transmitting frame) m

namespace Moves

variable {k : Effect → Bool}

theorem calling {α : Type} {op : RadioOp} {m : Work α} (h : k (.radio op) = true)
    (hm : Moves k m) : Moves k (radioCall op >>= fun _ ↦ m) :=
  Frame.bind (Frame.issue fun _ ↦ h) fun _ ↦ hm

theorem standby (h : k (.radio .standby) = true) : Moves k standby :=
  calling h (Frame.update fun _ ↦ rfl)

theorem armReceive (h : k (.radio .startReceive) = true) : Moves k armReceive :=
  Frame.read.bind fun _ ↦ (Frame.pure ()).ite <|
    Frame.bind (calling h (Frame.update fun _ ↦ rfl)) fun _ ↦ Frame.update fun _ ↦ rfl

end Moves

/-! ## Transmitting -/

namespace TxOnly

open Moves (calling)

theorem rules (frame : TxFrame) : TxRules frame fun m ↦ TxOnly frame m where
  pure := Frame.pure
  read := Frame.read
  bind := Frame.bind
  standby := Moves.standby rfl
  arm := Moves.armReceive rfl
  start _ st := calling (decide_eq_true rfl) (Frame.updating rfl (Frame.pure st))
  finish := calling rfl (Frame.update fun _ ↦ rfl)
  poll _ := Frame.issue fun _ ↦ rfl
  count hu := Frame.update fun w ↦ by
    obtain ⟨_, _, hw, -⟩ := hu w
    rw [hw]

theorem burstFrame (frame : TxFrame) (io : BurstInput) : TxOnly frame (burstFrame frame io) :=
  (rules frame).burstFrame io

end TxOnly

/-! ## Receiving -/

namespace RxOnly

theorem deliver (ps : List (Packet × Int16)) : RxOnly (deliver ps) := by
  refine Frame.issueAll fun e he _ ↦ ?_
  obtain ⟨p, -, rfl⟩ := List.mem_map.mp he
  rfl

theorem rules : RxRules fun m ↦ RxOnly m where
  pure := Frame.pure
  bind := Frame.bind
  ask {op} hop := Frame.issue fun _ ↦ by cases op <;> first | rfl | cases hop
  arm := Moves.armReceive rfl
  count hu := Frame.update fun w ↦ by
    obtain ⟨st, hw⟩ := hu w
    rw [hw]
  read _ _ _ := Moves.calling rfl (Frame.update fun _ ↦ rfl)
  fail _ _ _ _ _ := Frame.issue fun _ ↦ rfl
  deliver := deliver

theorem rxIter (i : RxStep) (l : RxLocals) : RxOnly (rxIter i l) := rules.rxIter i l

theorem rxLoop (is : List RxStep) (l : RxLocals) : RxOnly (rxLoop is l) := rules.rxLoop is l

end RxOnly

/-! ## The queue -/

section

variable {τ : Type} {f : RadioWorker → τ} {ok : τ → Effect → Prop}
  (hf : ∀ (w : RadioWorker) q st, f { w with txQ := q, st := st } = f w)

include hf

theorem enqueueTx_frame (frame : TxFrame) : Frame f ok (enqueueTx frame) :=
  Frame.read.bind fun _ ↦ (Frame.pure _).ite <| Frame.read.bind fun _ ↦
    Frame.ite ((Frame.update fun w ↦ hf w _ _).bind fun _ ↦ Frame.pure _)
      ((Frame.update fun w ↦ hf w _ _).bind fun _ ↦ Frame.pure _)

theorem popFrame_frame : Frame f ok popFrame := by
  unfold popFrame
  refine Frame.read.bind fun w ↦ ?_
  split
  · exact Frame.pure none
  · exact (Frame.update fun w ↦ hf w _ _).bind fun _ ↦ Frame.pure _

theorem serviceTxQueue_frame {io : BurstInput} (hburst : ∀ frame, Frame f ok (burstFrame frame io))
    (hreport : ∀ frame r t, ok t (.onTxTerminal frame r)) : Frame f ok (serviceTxQueue io) := by
  refine Frame.read.bind fun w ↦ (Frame.pure ()).ite ((popFrame_frame hf).bind fun frame ↦ ?_)
  cases frame with
  | none => exact Frame.pure ()
  | some frame => exact (hburst frame).bind fun _ ↦ Frame.issue (hreport frame _)

end

/-! ## Both -/

/-- `m` leaves the settings alone and issues no effect but those of traffic. -/
abbrev KeepsSettings {α : Type} (m : Work α) : Prop :=
  Frame RadioWorker.toSettings (fun _ e ↦ e.traffic = true) m

theorem Moves.keepsSettings {k : Effect → Bool} {α : Type} {m : Work α}
    (hk : ∀ e, k e = true → e.traffic = true) (h : Moves k m) : KeepsSettings m :=
  Frame.comp (f := fun w : RadioWorker ↦ (w.toSettings, w.txQ)) Prod.fst (fun _ e ↦ hk e) h

theorem Effect.traffic_of_receiving {e : Effect} (he : e.receiving = true) :
    e.traffic = true := by
  unfold Effect.traffic
  split <;> first | rfl | exact he

theorem RxOnly.keepsSettings {α : Type} {m : Work α} (h : RxOnly m) : KeepsSettings m :=
  Moves.keepsSettings (fun _ ↦ Effect.traffic_of_receiving) h

theorem TxOnly.keepsSettings {frame : TxFrame} {α : Type} {m : Work α} (h : TxOnly frame m) :
    KeepsSettings m := by
  refine Moves.keepsSettings (fun e he ↦ ?_) h
  unfold Effect.transmitting at he
  split at he <;> first | rfl | cases he

namespace KeepsSettings

theorem standby : KeepsSettings standby := Moves.keepsSettings (fun _ he ↦ he) (Moves.standby rfl)

theorem armReceive : KeepsSettings armReceive :=
  Moves.keepsSettings (fun _ he ↦ he) (Moves.armReceive rfl)

theorem enqueueTx (frame : TxFrame) : KeepsSettings (enqueueTx frame) :=
  enqueueTx_frame (fun _ _ _ ↦ rfl) frame

theorem popFrame : KeepsSettings popFrame := popFrame_frame fun _ _ _ ↦ rfl

theorem serviceTxQueue (io : BurstInput) : KeepsSettings (serviceTxQueue io) :=
  serviceTxQueue_frame (fun _ _ _ ↦ rfl) (fun frame ↦ (TxOnly.burstFrame frame io).keepsSettings)
    fun _ _ _ ↦ rfl

theorem rxLoop (is : List RxStep) (l : RxLocals) : KeepsSettings (rxLoop is l) :=
  (RxOnly.rxLoop is l).keepsSettings

end KeepsSettings

end RadioService
