import RadioService.Quiet

/-!
# What a burst does to the radio

The answers of the radio and the clock decide which attempts a burst makes and
which polls an attempt makes.  Here the effects of a burst are spelled out from
those answers, packet by packet.
-/

namespace RadioService

open Burst Traced

/-! ## Attempts -/

/-- The polls whose IRQ word is read: up to `TX_DONE`, a timeout or the deadline. -/
def pollsMade (deadline : UInt32) : List TxPoll → List TxPoll
  | [] => []
  | p :: ps =>
    if before p.now deadline then
      p :: if irqHas p.irq irqTxDone || irqHas p.irq irqTimeout then [] else pollsMade deadline ps
    else
      []

namespace Attempt

def deadline (a : Attempt) : UInt32 := a.startMs + 25

/-- The polls of an attempt; there are none if `startTransmit` fails. -/
def polled (a : Attempt) : List TxPoll :=
  if a.st = errNone then pollsMade a.deadline a.polls else []

/-- `TX_DONE` is read before the deadline. -/
def done (a : Attempt) : Bool := a.polled.any fun p ↦ irqHas p.irq irqTxDone

def effects (frame : TxFrame) (pkt : List UInt8) (k : ℕ) (a : Attempt) : List Effect :=
  (if k > 0 then [.radio .standby] else []) ++ .radio (.startTransmit frame pkt a.st) ::
    if a.st = errNone then
      (a.polled.map fun p ↦ .radio (.getClearIrqStatus p.irq)) ++ [.radio .finishTransmit]
    else []

theorem st_of_done {a : Attempt} (h : a.done = true) : a.st = errNone := by
  by_contra hst
  simp [done, polled, hst] at h

end Attempt

/-- The attempts made from attempt `k` on, with `n` still allowed. -/
def attemptsMade (attempt : ℕ → Attempt) : (k n : ℕ) → List ℕ
  | _, 0 => []
  | k, n + 1 => k :: if (attempt k).done then [] else attemptsMade attempt (k + 1) n

/-- One of these attempts is confirmed. -/
def packetDone (attempt : ℕ → Attempt) (k n : ℕ) : Bool :=
  (attemptsMade attempt k n).any fun k ↦ (attempt k).done

def packetEffects (frame : TxFrame) (pkt : List UInt8) (attempt : ℕ → Attempt) (k n : ℕ) :
    List Effect :=
  (attemptsMade attempt k n).flatMap fun k ↦ (attempt k).effects frame pkt k

/-! ## Programs that answer to the radio alone -/

/-- From every state `m` returns `v`, does `es` and changes nothing but the mode
of the chip. -/
def Drives {α : Type} (m : Work α) (v : α) (es : List Effect) : Prop :=
  ∀ w, (m.run w).val = v ∧ (m.run w).events = es ∧
    ∃ mode, (m.run w).state = { w with chipMode := mode }

namespace Drives

variable {α β : Type}

theorem pure (a : α) : Drives (Pure.pure a) a [] := fun w ↦ ⟨rfl, rfl, w.chipMode, rfl⟩

theorem bind {m : Work α} {g : α → Work β} {a : α} {b : β} {es es' : List Effect}
    (hm : Drives m a es) (hg : Drives (g a) b es') : Drives (m >>= g) b (es ++ es') := by
  intro w
  obtain ⟨hval, hevents, mode, hstate⟩ := hm w
  obtain ⟨hval', hevents', mode', hstate'⟩ := hg (m.run w).state
  rw [← hval] at hval' hevents' hstate'
  refine ⟨hval', ?_, mode', ?_⟩
  · rw [run_bind, Outcome.events_prepend, hevents']
    exact congrArg (· ++ es') hevents
  · rw [run_bind, Outcome.prepend_state, hstate', hstate]

theorem ite {c : Prop} [Decidable c] {m n : Work α} {a : α} {es : List Effect}
    (hm : c → Drives m a es) (hn : ¬c → Drives n a es) :
    Drives (if c then m else n) a es := by
  split
  · exact hm ‹_›
  · exact hn ‹_›

theorem call (op : RadioOp) : Drives (radioCall op) () [.radio op] :=
  fun w ↦ ⟨rfl, rfl, w.chipMode, rfl⟩

theorem mode (mode : ChipMode) :
    Drives (update fun w : RadioWorker ↦ { w with chipMode := mode }) () [] :=
  fun _ ↦ ⟨rfl, rfl, mode, rfl⟩

theorem standby : Drives standby () [.radio .standby] := (call _).bind (mode _)

theorem startTransmit (frame : TxFrame) (pkt : List UInt8) (st : Int16) :
    Drives (startTransmit frame pkt st) st [.radio (.startTransmit frame pkt st)] :=
  (call _).bind ((mode _).bind (pure st))

theorem finishTransmit : Drives finishTransmit () [.radio .finishTransmit] := (call _).bind (mode _)

theorem waitTxDone (deadline : UInt32) (polls : List TxPoll) :
    Drives (waitTxDone deadline polls)
      ((pollsMade deadline polls).any fun p ↦ irqHas p.irq irqTxDone)
      ((pollsMade deadline polls).map fun p ↦ .radio (.getClearIrqStatus p.irq)) := by
  induction polls with
  | nil => exact pure false
  | cons p ps ih =>
      unfold RadioService.waitTxDone pollsMade
      by_cases hbefore : before p.now deadline = true
      case neg =>
        rw [if_neg hbefore, if_neg hbefore]
        exact pure false
      rw [if_pos hbefore, if_pos hbefore, List.map_cons, List.any_cons]
      refine (call _).bind ?_
      cases hdone : irqHas p.irq irqTxDone with
      | true => exact pure true
      | false =>
          cases htimeout : irqHas p.irq irqTimeout with
          | true => exact pure false
          | false => exact ih

theorem attempt (frame : TxFrame) (pkt : List UInt8) {a : Attempt} {m : Work Bool} {v : Bool}
    {es : List Effect} (hm : a.done = false → Drives m v es) :
    Drives (do
        let st ← RadioService.startTransmit frame pkt a.st
        if st ≠ errNone then
          m
        else
          let done ← RadioService.waitTxDone (a.startMs + 25) a.polls
          RadioService.finishTransmit
          if done then
            return true
          else
            m)
      (a.done || v)
      (a.effects frame pkt 0 ++ if a.done then [] else es) := by
  by_cases hst : a.st = errNone
  case neg =>
    have hdone : a.done = false := by
      simp [Attempt.done, Attempt.polled, hst]
    have heffects : [.radio (.startTransmit frame pkt a.st)] ++ es =
        a.effects frame pkt 0 ++ if a.done then [] else es := by
      simp [Attempt.effects, hst, hdone]
    rw [← heffects]
    refine (startTransmit frame pkt a.st).bind ?_
    rw [if_pos hst, hdone]
    exact hm hdone
  have hpolled : a.polled = pollsMade (a.startMs + 25) a.polls := if_pos hst
  have hwait := waitTxDone (a.startMs + 25) a.polls
  rw [← hpolled] at hwait
  have hrest : Drives (if a.done = true then return true else m) (a.done || v)
      (if a.done then [] else es) := by
    cases hdone : a.done with
    | true => exact pure true
    | false => exact hm hdone
  have heffects : [.radio (.startTransmit frame pkt a.st)] ++
      ((a.polled.map fun p ↦ .radio (.getClearIrqStatus p.irq)) ++
        ([.radio .finishTransmit] ++ if a.done then [] else es)) =
      a.effects frame pkt 0 ++ if a.done then [] else es := by
    simp [Attempt.effects, hst]
  rw [← heffects]
  refine (startTransmit frame pkt a.st).bind ?_
  rw [if_neg (not_not.mpr hst)]
  exact hwait.bind (finishTransmit.bind hrest)

theorem tryPacket (frame : TxFrame) (pkt : List UInt8) (attempt : ℕ → Attempt) (k n : ℕ) :
    Drives (tryPacket frame pkt attempt k n) (packetDone attempt k n)
      (packetEffects frame pkt attempt k n) := by
  induction n generalizing k with
  | zero => exact pure false
  | succ n ih =>
      have hdone : packetDone attempt k (n + 1) =
          ((attempt k).done || packetDone attempt (k + 1) n) := by
        cases h : (attempt k).done <;> simp [packetDone, attemptsMade, h]
      have heffects : packetEffects frame pkt attempt k (n + 1) =
          (if k > 0 then [.radio .standby] else []) ++ ((attempt k).effects frame pkt 0 ++
            if (attempt k).done then [] else packetEffects frame pkt attempt (k + 1) n) := by
        cases h : (attempt k).done <;> simp [packetEffects, attemptsMade, Attempt.effects, h]
      rw [hdone, heffects]
      have hrest := Drives.attempt frame pkt (a := attempt k) fun _ ↦ ih (k + 1)
      refine Drives.ite (fun hk ↦ ?_) fun hk ↦ ?_
      · rw [if_pos hk]
        exact standby.bind hrest
      · rw [if_neg hk]
        exact hrest

end Drives

/-! ## Packets -/

/-- The packets tried from `idx` on, with `n` still to send. -/
def packetsMade (attempt : ℕ → ℕ → Attempt) : (idx n : ℕ) → List ℕ
  | _, 0 => []
  | idx, n + 1 =>
    idx :: if packetDone (attempt idx) 0 3 then packetsMade attempt (idx + 1) n else []

def allDone (attempt : ℕ → ℕ → Attempt) (idx n : ℕ) : Bool :=
  (List.range' idx n).all fun i ↦ packetDone (attempt i) 0 3

theorem packetsMade_of_allDone {attempt : ℕ → ℕ → Attempt} {idx n : ℕ}
    (h : allDone attempt idx n = true) : packetsMade attempt idx n = List.range' idx n := by
  induction n generalizing idx with
  | zero => rfl
  | succ n ih =>
      rw [allDone, List.range'_succ, List.all_cons, Bool.and_eq_true] at h
      rw [packetsMade, if_pos h.1, ih h.2, List.range'_succ]

theorem sendPackets_run (frame : TxFrame) (id total : UInt16) (crc : UInt32)
    (attempt : ℕ → ℕ → Attempt) (idx n : ℕ) (w : RadioWorker) :
    let o := (sendPackets frame id total crc attempt idx n).run w
    o.val = allDone attempt idx n ∧
      o.events = (packetsMade attempt idx n).flatMap (fun i ↦ packetEffects frame
        (encodePacket id (UInt16.ofNat i) total frame.payload
          (UInt32.ofNat frame.payload.length) crc) (attempt i) 0 3) ∧
      o.state.toSettings = w.toSettings ∧ o.state.st.burstsTx = w.st.burstsTx ∧
      (o.val = true → o.state.st.packetsTx = w.st.packetsTx + UInt32.ofNat n) := by
  induction n generalizing idx w with
  | zero => simp [sendPackets, allDone, packetsMade, Outcome.events]
  | succ n ih =>
      let pkt := encodePacket id (UInt16.ofNat idx) total frame.payload
        (UInt32.ofNat frame.payload.length) crc
      obtain ⟨hval, hevents, mode, hstate⟩ := Drives.tryPacket frame pkt (attempt idx) 0 3 w
      have hall : allDone attempt idx (n + 1) =
          (packetDone (attempt idx) 0 3 && allDone attempt (idx + 1) n) := by
        rw [allDone, List.range'_succ, List.all_cons, allDone]
      rw [hall, packetsMade, List.flatMap_cons]
      cases hdone : packetDone (attempt idx) 0 3 with
      | false =>
          rw [hdone] at hval
          -- a packet that is never confirmed ends the burst
          have hrun : (sendPackets frame id total crc attempt idx (n + 1)).run w =
              ⟨false, { w with chipMode := mode },
                ((tryPacket frame pkt (attempt idx) 0 3).run w).log⟩ := by
            simp [sendPackets, pkt, hval, hstate]
          rw [hrun]
          refine ⟨rfl, ?_, rfl, rfl, by simp⟩
          rw [if_neg Bool.false_ne_true, List.flatMap_nil, List.append_nil]
          exact hevents
      | true =>
          rw [hdone] at hval
          let w₁ : RadioWorker :=
            { w with chipMode := mode, st := { w.st with packetsTx := w.st.packetsTx + 1 } }
          have hrun : (sendPackets frame id total crc attempt idx (n + 1)).run w =
              ((sendPackets frame id total crc attempt (idx + 1) n).run w₁).prepend
                ((tryPacket frame pkt (attempt idx) 0 3).run w).log := by
            simp [sendPackets, pkt, hval, hstate, w₁]
          obtain ⟨hval', hevents', hsettings', hbursts', hpackets'⟩ := ih (idx + 1) w₁
          rw [hrun]
          refine ⟨hval', ?_, hsettings', hbursts', fun hok ↦ (hpackets' hok).trans ?_⟩
          · rw [Outcome.events_prepend, hevents', if_pos rfl]
            exact congrArg (· ++ _) hevents
          · rw [UInt32.ofNat_add, UInt32.add_comm (UInt32.ofNat n), ← UInt32.add_assoc]
            rfl

/-! ## The burst -/

def burstPacket (payload : List UInt8) (id : UInt16) (idx : ℕ) : List UInt8 :=
  encodePacket id (UInt16.ofNat idx) (burstTotal payload.length) payload
    (UInt32.ofNat payload.length) (crc32 payload)

def burstPackets (io : BurstInput) (len : ℕ) : List ℕ :=
  if badBurstSize len then [] else packetsMade io.attempt 0 (burstTotal len).toNat

def burstDone (io : BurstInput) (len : ℕ) : Bool :=
  !badBurstSize len && allDone io.attempt 0 (burstTotal len).toNat

/-- The effects of a burst behind its standby. -/
def burstEffects (frame : TxFrame) (io : BurstInput) (id : UInt16) : List Effect :=
  (burstPackets io frame.payload.length).flatMap fun idx ↦
    packetEffects frame (burstPacket frame.payload id idx) (io.attempt idx) 0 3

theorem transmitBurst_run (frame : TxFrame) (io : BurstInput) (w : RadioWorker) :
    let o := (transmitBurst frame io).run w
    o.val = burstDone io frame.payload.length ∧
      o.events = burstEffects frame io (burstId io.tvSec io.tvNsec w.burstIdCounter) ∧
      o.state.toSettings = w.toSettings ∧
      (o.val = true → o.state.st.burstsTx = w.st.burstsTx + 1 ∧
        o.state.st.packetsTx =
          w.st.packetsTx + UInt32.ofNat (burstTotal frame.payload.length).toNat) := by
  cases hbad : badBurstSize frame.payload.length with
  | true =>
      simp [transmitBurst, burstDone, burstEffects, burstPackets, hbad, Outcome.events]
  | false =>
      let w₁ : RadioWorker := { w with
        burstIdCounter := w.burstIdCounter + 1, st := { w.st with burstsTx := w.st.burstsTx + 1 } }
      obtain ⟨hval, hevents, hsettings, hbursts, hpackets⟩ := sendPackets_run frame
        (burstId io.tvSec io.tvNsec w.burstIdCounter) (burstTotal frame.payload.length)
        (crc32 frame.payload) io.attempt 0 (burstTotal frame.payload.length).toNat w₁
      have hrun : (transmitBurst frame io).run w =
          (sendPackets frame (burstId io.tvSec io.tvNsec w.burstIdCounter)
            (burstTotal frame.payload.length) (crc32 frame.payload) io.attempt 0
            (burstTotal frame.payload.length).toNat).run w₁ := by
        simp [transmitBurst, hbad, w₁]
      rw [hrun]
      refine ⟨?_, ?_, hsettings, fun hok ↦ ⟨hbursts, hpackets hok⟩⟩
      · rw [hval, burstDone, hbad, Bool.not_false, Bool.true_and]
      · rw [hevents, burstEffects, burstPackets, hbad, if_neg (by simp)]
        rfl

def armEffects (s : Settings) : List Effect :=
  if !s.radioOk || s.cfg.role == 1 then [] else [.radio .startReceive]

theorem armReceive_run (w : RadioWorker) :
    (armReceive.run w).events = armEffects w.toSettings ∧
      (armReceive.run w).state.st.packetsTx = w.st.packetsTx ∧
      (armReceive.run w).state.st.burstsTx = w.st.burstsTx := by
  cases hok : w.radioOk
  · simp [armReceive, armEffects, hok]
  by_cases hrole : w.cfg.role = 1
  · simp [armReceive, armEffects, hrole]
  · simp [armReceive, armEffects, hok, hrole, startReceive, radioCall]

theorem burstFrame_run (frame : TxFrame) (io : BurstInput) (w : RadioWorker) :
    let o := (burstFrame frame io).run w
    o.val = burstDone io frame.payload.length ∧
      o.events = [.radio .standby] ++
        burstEffects frame io (burstId io.tvSec io.tvNsec w.burstIdCounter) ++
          armEffects w.toSettings ∧
      (o.val = true → o.state.st.burstsTx = w.st.burstsTx + 1 ∧
        o.state.st.packetsTx =
          w.st.packetsTx + UInt32.ofNat (burstTotal frame.payload.length).toNat) := by
  let w₁ : RadioWorker := { w with chipMode := .standby, st := { w.st with burstMode := 2 } }
  let o₁ := (transmitBurst frame io).run w₁
  obtain ⟨hval, hevents, hsettings, hcounts⟩ := transmitBurst_run frame io w₁
  let w₂ : RadioWorker := { o₁.state with st := { o₁.state.st with burstMode := 0 } }
  obtain ⟨harm, hpackets, hbursts⟩ := armReceive_run w₂
  have hrun : (burstFrame frame io).run w =
      ⟨o₁.val, (armReceive.run w₂).state,
        (w, .radio .standby) :: (o₁.log ++ (armReceive.run w₂).log)⟩ := by
    simp [burstFrame, standby, radioCall, w₁, w₂, o₁]
  rw [hrun]
  refine ⟨hval, ?_, fun hok ↦ ?_⟩
  · have hsame : w₂.toSettings = w.toSettings := hsettings
    rw [hsame] at harm
    have hlog : o₁.log.map Prod.snd =
        burstEffects frame io (burstId io.tvSec io.tvNsec w.burstIdCounter) := hevents
    have hlog' : (armReceive.run w₂).log.map Prod.snd = armEffects w.toSettings := harm
    rw [Outcome.events_mk, List.map_cons, List.map_append, hlog, hlog', List.append_assoc]
    rfl
  · rw [hpackets, hbursts]
    exact hcounts hok

end RadioService
