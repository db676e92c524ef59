import RadioService.RxLoop

/-!
# Rules for the receive loop

The loop is put together from few things: calls that only ask, re-arming, counting,
reading a packet and handing packets up.  A property of programs that these have
and that survives sequencing holds of the whole loop.
-/

namespace RadioService

open Burst Traced

/-- The calls of the loop that ask for something or clear the FIFO. -/
def RadioOp.asks : RadioOp → Bool
  | .getClearIrqStatus _ | .getRxFifoLevel _ | .getPacketStatusFLRC _ | .clearRxBuffer => true
  | _ => false

/-- `u` changes no more than the counters. -/
def Counts (u : RadioWorker → RadioWorker) : Prop := ∀ w, ∃ st, u w = { w with st := st }

/-- What `P` has to hold of for it to hold of the receive loop. -/
structure RxRules (P : ∀ {α : Type}, Work α → Prop) : Prop where
  pure : ∀ {α : Type} (a : α), P (pure a : Work α)
  bind : ∀ {α β : Type} {m : Work α} {g : α → Work β}, P m → (∀ a, P (g a)) → P (m >>= g)
  ask : ∀ {op : RadioOp}, op.asks = true → P (radioCall op)
  arm : P armReceive
  count : ∀ {u : RadioWorker → RadioWorker}, Counts u → P (update u : Work Unit)
  read : ∀ (pkt : Packet) (avg low : UInt8), P (do
    radioCall (.readData pkt (rssiOf avg low) errNone)
    update (countRead pkt (rssiOf avg low)))
  fail : ∀ (pkt : Packet) (avg low : UInt8) {st : Int16}, st ≠ errNone →
    P (radioCall (.readData pkt (rssiOf avg low) st))
  deliver : ∀ ps : List (Packet × Int16), P (deliver ps)

namespace RxRules

variable {P : ∀ {α : Type}, Work α → Prop}

theorem ite {α : Type} {c : Prop} [Decidable c] {m n : Work α} (_ : RxRules P) (hm : P m)
    (hn : P n) : P (if c then m else n) := by
  split <;> assumption

variable (h : RxRules P)

include h

theorem asking {α : Type} {op : RadioOp} {m : Work α} (hop : op.asks = true) (hm : P m) :
    P (radioCall op >>= fun _ ↦ m) := h.bind (h.ask hop) fun _ ↦ hm

theorem counting {α : Type} {u : RadioWorker → RadioWorker} {m : Work α} (hu : Counts u)
    (hm : P m) : P (update u >>= fun _ ↦ m) := h.bind (h.count hu) fun _ ↦ hm

theorem armed {α : Type} (a : α) : P (armReceive >>= fun _ ↦ (Pure.pure a : Work α)) :=
  h.bind h.arm fun _ ↦ h.pure a

theorem rxSense (i : RxStep) (l : RxLocals) : P (rxSense i l) :=
  h.asking rfl <| h.ite (h.asking rfl (h.ite (h.pure _) (h.ite (h.pure _) (h.pure _))))
    (h.pure _)

theorem rxRead (i : RxStep) (l : RxLocals) : P (rxRead i l) := by
  refine h.asking rfl (h.ite ?_ (h.ite ?_ (h.asking rfl ?_)))
  · refine h.counting (fun w ↦ ?_) (h.asking rfl (h.armed _))
    split <;> exact ⟨_, rfl⟩
  · exact h.ite (h.asking rfl (h.armed _)) (h.pure _)
  · by_cases hst : i.readSt = errNone
    · rw [hst]
      simp only [if_pos]
      rw [← bind_assoc]
      exact h.bind (h.read _ _ _) fun _ ↦ h.pure _
    · simp only [if_neg hst]
      exact h.bind (h.fail _ _ _ hst) fun _ ↦ h.armed _

theorem rxIdle (i : RxStep) (l : RxLocals) : P (rxIdle i l) := by
  refine h.ite (h.counting (fun w ↦ ?_) (h.armed _)) (h.pure _)
  split
  · exact ⟨_, rfl⟩
  · split <;> exact ⟨_, rfl⟩

theorem rxTail (i : RxStep) (l : RxLocals) : P (rxTail i l) := by
  have hleave : P (do
      RadioService.deliver l.queue
      return RxNext.leave) := h.bind (h.deliver _) fun _ ↦ h.pure _
  exact h.ite (h.pure _) <| h.ite
    (h.asking rfl (h.bind h.arm fun _ ↦ h.counting (fun _ ↦ ⟨_, rfl⟩) hleave)) hleave

theorem rxPacket (i : RxStep) (p : Packet × Int16) (l : RxLocals) : P (rxPacket i p l) := by
  unfold RadioService.rxPacket
  cases decodeHeader p.1.bytes with
  | none =>
      exact h.asking rfl (h.bind h.arm fun _ ↦ h.counting (fun _ ↦ ⟨_, rfl⟩) (h.pure _))
  | some hdr =>
      refine h.ite (h.counting (fun _ ↦ ⟨_, rfl⟩) (h.pure _)) ?_
      refine h.counting (fun _ ↦ ⟨_, rfl⟩) (h.counting (fun _ ↦ ⟨_, rfl⟩) ?_)
      exact h.bind (h.deliver _) fun _ ↦ h.asking rfl <| h.ite (h.pure _) <|
        h.ite (h.pure _) <| h.asking rfl (h.rxTail _ _)

theorem rxIter (i : RxStep) (l : RxLocals) : P (rxIter i l) := by
  refine h.bind (h.rxSense i l) fun ⟨hasRx, l⟩ ↦ ?_
  refine h.ite (h.bind (h.rxRead i l) ?_) (h.bind (h.rxIdle i l) ?_)
  all_goals
    rintro ⟨got, l⟩
    cases got with
    | some p => exact h.rxPacket i p _
    | none => exact h.rxTail i l

theorem rxLoop (is : List RxStep) (l : RxLocals) : P (rxLoop is l) := by
  induction is generalizing l with
  | nil => exact h.bind (h.rxIter _ l) fun _ ↦ h.pure ()
  | cons i is ih =>
      refine h.bind (h.rxIter i l) fun next ↦ ?_
      cases next with
      | again l => exact ih l
      | leave => exact h.pure ()

end RxRules

end RadioService
