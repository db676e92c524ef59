import RadioService.Worker

/-!
# Rules for a burst

A burst is put together from standby, the start and the end of a transmission, the poll of
its interrupts, counting and re-arming.  A property of programs that these have and that
survives sequencing holds of the whole burst.
-/

namespace RadioService

open Burst Traced

/-- `u` changes no more than the burst id and the counters. -/
def CountsBurst (u : RadioWorker → RadioWorker) : Prop :=
  ∀ w, ∃ id st, u w = { w with burstIdCounter := id, st := st } ∧
    st.pendingTxValid = w.st.pendingTxValid

/-- What `P` has to hold of for it to hold of a burst with `frame`. -/
structure TxRules (frame : TxFrame) (P : ∀ {α : Type}, Work α → Prop) : Prop where
  pure : ∀ {α : Type} (a : α), P (pure a : Work α)
  read : P (read : Work RadioWorker)
  bind : ∀ {α β : Type} {m : Work α} {g : α → Work β}, P m → (∀ a, P (g a)) → P (m >>= g)
  standby : P standby
  arm : P armReceive
  start : ∀ (pkt : List UInt8) (st : Int16), P (startTransmit frame pkt st)
  finish : P finishTransmit
  poll : ∀ irq : UInt32, P (radioCall (.getClearIrqStatus irq))
  count : ∀ {u : RadioWorker → RadioWorker}, CountsBurst u → P (update u : Work Unit)

namespace TxRules

variable {frame : TxFrame} {P : ∀ {α : Type}, Work α → Prop}

theorem ite {α : Type} {c : Prop} [Decidable c] {m n : Work α} (_ : TxRules frame P) (hm : P m)
    (hn : P n) : P (if c then m else n) := by
  split <;> assumption

variable (h : TxRules frame P)

include h

theorem counting {α : Type} {u : RadioWorker → RadioWorker} {m : Work α} (hu : CountsBurst u)
    (hm : P m) : P (update u >>= fun _ ↦ m) := h.bind (h.count hu) fun _ ↦ hm

theorem waitTxDone (deadline : UInt32) (polls : List TxPoll) : P (waitTxDone deadline polls) := by
  induction polls with
  | nil => exact h.pure false
  | cons p ps ih =>
      refine h.ite ?_ (h.pure false)
      exact h.bind (h.poll _) fun _ ↦ h.ite (h.pure true) (h.ite (h.pure false) ih)

theorem tryPacket (pkt : List UInt8) (attempt : ℕ → Attempt) (k n : ℕ) :
    P (tryPacket frame pkt attempt k n) := by
  induction n generalizing k with
  | zero => exact h.pure false
  | succ n ih =>
      have hrest : P (do
          let st ← startTransmit frame pkt (attempt k).st
          if st ≠ errNone then
            RadioService.tryPacket frame pkt attempt (k + 1) n
          else
            let done ← RadioService.waitTxDone ((attempt k).startMs + 25) (attempt k).polls
            finishTransmit
            if done then
              return true
            else
              RadioService.tryPacket frame pkt attempt (k + 1) n) :=
        h.bind (h.start pkt _) fun _ ↦ h.ite (ih (k + 1)) <|
          h.bind (h.waitTxDone _ _) fun _ ↦ h.bind h.finish fun _ ↦
            h.ite (h.pure true) (ih (k + 1))
      exact h.ite (h.bind h.standby fun _ ↦ hrest) hrest

theorem sendPackets (id total : UInt16) (crc : UInt32) (attempt : ℕ → ℕ → Attempt) (idx n : ℕ) :
    P (sendPackets frame id total crc attempt idx n) := by
  induction n generalizing idx with
  | zero => exact h.pure true
  | succ n ih =>
      exact h.bind (h.tryPacket _ _ _ _) fun _ ↦
        h.ite (h.pure false) (h.counting (fun _ ↦ ⟨_, _, rfl, rfl⟩) (ih (idx + 1)))

theorem transmitBurst (io : BurstInput) : P (transmitBurst frame io) :=
  h.ite (h.pure false) <| h.bind h.read fun _ ↦
    h.counting (fun _ ↦ ⟨_, _, rfl, rfl⟩) (h.sendPackets _ _ _ _ _ _)

theorem burstFrame (io : BurstInput) : P (burstFrame frame io) :=
  h.bind h.standby fun _ ↦ h.counting (fun _ ↦ ⟨_, _, rfl, rfl⟩) <|
    h.bind (h.transmitBurst io) fun ok ↦ h.counting (fun _ ↦ ⟨_, _, rfl, rfl⟩) <|
      h.bind h.arm fun _ ↦ h.pure ok

end TxRules

end RadioService
