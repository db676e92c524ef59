import RadioService.RxTurn
import RadioService.ScanRun

/-!
# The mode shown in the stats

`burstMode` is set behind a packet that is not the last of its burst and reset on the
ways out of the receive loop, on some of them by re-arming only.  One way does neither:
a packet is announced, and the FIFO turns out to be empty.
-/

namespace RadioService

open Burst Traced

/-- A packet is announced, without an error, and the FIFO is empty. -/
def RxStep.hollow (i : RxStep) (l : RxLocals) : Bool :=
  i.pending l && !irqHas i.irq packetErrors && decide (i.rxLevel = 0)

/-- The turn that ends the loop is a hollow one, and packets are parked. -/
def strands : List RxStep → RxLocals → Bool
  | [], _ => false
  | i :: is, l =>
    match i.next l with
    | .again l => strands is l
    | .leave => i.hollow l && !l.queue.isEmpty

/-- The mode follows the parked packets, which keep the burst open. -/
def ModeTrue (l : RxLocals) (mode : UInt8) : Prop :=
  mode = (if l.queue.isEmpty then 0 else 1) ∧ (l.queue ≠ [] → l.inBurst = true)

/-! ## The mode behind a program -/

/-- The radio is up and may receive. -/
def Armed (w : RadioWorker) : Prop := w.radioOk = true ∧ w.cfg.role ≠ 1

/-- With the radio armed and the mode `a`, `m` leaves it armed, and `Q` holds of what it
returns and of the mode behind it. -/
def Shows {α : Type} (a : UInt8) (Q : α → UInt8 → Prop) (m : Work α) : Prop :=
  ∀ w, Armed w → w.st.burstMode = a →
    Armed (m.run w).state ∧ Q (m.run w).val (m.run w).state.st.burstMode

namespace Shows

variable {α β : Type} {a : UInt8} {Q : α → UInt8 → Prop}

theorem pure {v : α} (h : Q v a) : Shows a Q (Pure.pure v) := by
  rintro w hw rfl
  exact ⟨hw, h⟩

theorem ite {c : Prop} [Decidable c] {m n : Work α} (hm : c → Shows a Q m)
    (hn : ¬c → Shows a Q n) : Shows a Q (if c then m else n) := by
  split
  · exact hm ‹_›
  · exact hn ‹_›

theorem bind {P : β → UInt8 → Prop} {m : Work β} {g : β → Work α} (hm : Shows a P m)
    (hg : ∀ v b, P v b → Shows b Q (g v)) : Shows a Q (m >>= g) := by
  intro w hw ha
  obtain ⟨harmed, hmode⟩ := hm w hw ha
  exact hg _ _ hmode (m.run w).state harmed rfl

theorem mono {P : α → UInt8 → Prop} {m : Work α} (hm : Shows a P m)
    (h : ∀ v b, P v b → Q v b) : Shows a Q m :=
  fun w hw ha ↦ ⟨(hm w hw ha).1, h _ _ (hm w hw ha).2⟩

theorem call {op : RadioOp} {m : Work α} (hm : Shows a Q m) :
    Shows a Q (radioCall op >>= fun _ ↦ m) := hm

theorem deliver {ps : List (Packet × Int16)} {m : Work α} (hm : Shows a Q m) :
    Shows a Q (deliver ps >>= fun _ ↦ m) := hm

theorem update {u : RadioWorker → RadioWorker} {m : Work α}
    (hset : ∀ w, (u w).toSettings = w.toSettings) {b : UInt8}
    (hmode : ∀ w : RadioWorker, w.st.burstMode = a → (u w).st.burstMode = b)
    (hm : Shows b Q m) : Shows a Q (Traced.update u >>= fun _ ↦ m) := by
  intro w hw ha
  refine hm (u w) ?_ (hmode w ha)
  rw [Armed, hset w]
  exact hw

theorem setMode {b : UInt8} {m : Work α} (hm : Shows b Q m) :
    Shows a Q (Traced.update (setBurstMode b) >>= fun _ ↦ m) :=
  update (fun _ ↦ rfl) (fun _ _ ↦ rfl) hm

theorem arm {m : Work α} (hm : Shows 0 Q m) : Shows a Q (armReceive >>= fun _ ↦ m) := by
  refine bind (P := fun _ b ↦ b = 0) (fun w hw _ ↦ ?_) ?_
  · have hrun : (armReceive.run w).state =
        { w with
          chipMode := .receive, st := { w.st with burstMode := 0, restartRxPending := 0 } } := by
      simp [armReceive, startReceive, radioCall, hw.1, hw.2]
    rw [hrun]
    exact ⟨hw, rfl⟩
  · rintro _ _ rfl
    exact hm

/-- What a program returns is known already. -/
theorem returning {P : α → Prop} {m : Work α} (hP : Returns P m) (hQ : Shows a Q m) :
    Shows a (fun v b ↦ P v ∧ Q v b) m :=
  fun w hw ha ↦ ⟨(hQ w hw ha).1, hP w, (hQ w hw ha).2⟩

end Shows

/-! ## The parts of a turn -/

theorem rxSense_shows (a : UInt8) (i : RxStep) (l : RxLocals) :
    Shows a (fun _ b ↦ b = a) (rxSense i l) := by
  refine Shows.call (Shows.ite (fun _ ↦ Shows.call ?_) fun _ ↦ Shows.pure rfl)
  exact Shows.ite (fun _ ↦ Shows.pure rfl) fun _ ↦
    Shows.ite (fun _ ↦ Shows.pure rfl) fun _ ↦ Shows.pure rfl

/-- A read that fails re-arms, except on an empty FIFO. -/
theorem rxRead_shows (a : UInt8) (i : RxStep) (l : RxLocals) :
    Shows a (fun _ b ↦ b = if i.readable || !irqHas i.irq packetErrors && decide (i.rxLevel = 0)
      then a else 0) (rxRead i l) := by
  refine Shows.call (Shows.ite (fun herr ↦ ?_) fun herr ↦
    Shows.ite (fun hshort ↦ ?_) fun hlong ↦ ?_)
  · refine Shows.update (b := a) (fun w ↦ ?_) (fun w ha ↦ ?_) <| Shows.call <| Shows.arm <|
      Shows.pure ?_
    · split <;> rfl
    · split <;> exact ha
    · simp [RxStep.readable, herr]
  · have hunread : i.readable = false := by simp [RxStep.readable, UInt16.not_le.mpr hshort]
    refine Shows.ite (fun hsome ↦ Shows.call (Shows.arm (Shows.pure ?_))) fun hnone ↦
      Shows.pure ?_
    · have hne : i.rxLevel ≠ 0 := fun h ↦ absurd hsome (by rw [h]; decide)
      simp [hunread, hne]
    · have hzero : i.rxLevel = 0 :=
        UInt16.le_antisymm (UInt16.not_lt.mp hnone) UInt16.zero_le
      simp [herr, hzero]
  · have hlevel := UInt16.not_lt.mp hlong
    have hne : i.rxLevel ≠ 0 := fun h ↦ absurd hlevel (by rw [h]; decide)
    refine Shows.call (Shows.call (Shows.ite (fun hst ↦ ?_) fun hst ↦ ?_))
    · refine Shows.update (fun _ ↦ rfl) (fun _ ha ↦ ha) (Shows.pure ?_)
      simp [RxStep.readable, herr, hst, hlevel]
    · refine Shows.arm (Shows.pure ?_)
      simp [RxStep.readable, hst, hne]

theorem rxIdle_shows (a : UInt8) (i : RxStep) (l : RxLocals) :
    Shows a (fun _ b ↦ b = if irqHas i.irq (irqCrcError ||| irqLenError ||| irqTimeout)
      then 0 else a) (rxIdle i l) := by
  refine Shows.ite (fun herr ↦ ?_) fun herr ↦ Shows.pure (by rw [if_neg herr])
  refine Shows.update (b := a) (fun w ↦ ?_) (fun w ha ↦ ?_) (Shows.arm (Shows.pure ?_))
  · split
    · rfl
    · split <;> rfl
  · split
    · exact ha
    · split <;> exact ha
  · rw [if_pos herr]

theorem rxTail_shows (a : UInt8) (i : RxStep) (l : RxLocals) :
    Shows a (fun _ b ↦ b = if l.inBurst && !before i.deadlineNow l.burstDeadlineMs then 0 else a)
      (rxTail i l) := by
  refine Shows.ite (fun hwait ↦ Shows.pure ?_) fun hwait ↦ Shows.ite (fun hopen ↦ ?_) fun hopen ↦ ?_
  · rw [Bool.and_eq_true] at hwait
    simp [hwait.2]
  · rw [hopen, Bool.true_and, Bool.not_eq_true] at hwait
    refine Shows.call (Shows.arm (Shows.setMode (Shows.deliver (Shows.pure ?_))))
    simp [hopen, hwait]
  · exact Shows.deliver (Shows.pure (by simp [hopen]))

theorem rxPacket_shows (a : UInt8) (i : RxStep) (p : Packet × Int16) (l : RxLocals) :
    Shows a (fun _ b ↦ b = if midBurst p then 1 else 0) (rxPacket i p l) := by
  unfold rxPacket midBurst
  cases hdr : decodeHeader p.1.bytes with
  | none => exact Shows.call (Shows.arm (Shows.setMode (Shows.pure rfl)))
  | some hdr' =>
      refine Shows.ite (fun hmid ↦ Shows.setMode (Shows.pure (by simp [hmid]))) fun hlast ↦ ?_
      have hzero : (if Option.any (fun hdr : Header ↦ decide (hdr.packetIdx.toNat + 1 <
          hdr.totalPackets.toNat)) (some hdr') = true then (1 : UInt8) else 0) = 0 := by
        simp [hlast]
      rw [hzero]
      refine Shows.setMode (Shows.update (fun _ ↦ rfl) (fun _ ha ↦ ha) ?_)
      refine Shows.deliver (Shows.call (Shows.ite (fun _ ↦ Shows.pure rfl) fun _ ↦
        Shows.ite (fun _ ↦ Shows.pure rfl) fun _ ↦ Shows.call ?_))
      exact (rxTail_shows 0 i _).mono fun _ b hb ↦ hb.trans (ite_self 0)

/-! ## A turn -/

/-- Nothing happens in the turn, or it waits, or it is hollow. -/
def RxStep.idles (i : RxStep) (l : RxLocals) : Bool :=
  i.hollow l || !i.pending l && !irqHas i.irq (irqCrcError ||| irqLenError ||| irqTimeout) &&
    (!(i.sensed l).inBurst || before i.deadlineNow (i.sensed l).burstDeadlineMs)

def RxStep.mode (i : RxStep) (l : RxLocals) (a : UInt8) : UInt8 :=
  if i.reads l then if midBurst (i.pkt, i.rssi) then 1 else 0
  else if i.idles l then a else 0

theorem rxIter_shows (a : UInt8) (i : RxStep) (l : RxLocals) :
    Shows a (fun next b ↦ next = i.next l ∧ b = i.mode l a) (rxIter i l) := by
  refine Shows.returning (rxIter_returns i l) ?_
  refine Shows.bind (Shows.returning (rxSense_returns i l) (rxSense_shows a i l)) ?_
  rintro _ _ ⟨rfl, rfl⟩
  refine Shows.ite (fun hp ↦ ?_) fun hp ↦ ?_
  · refine Shows.bind (Shows.returning (rxRead_returns i _) (rxRead_shows _ i _)) ?_
    rintro _ _ ⟨rfl, rfl⟩
    cases hread : i.readable with
    | true =>
        refine (rxPacket_shows _ i (i.pkt, i.rssi) _).mono fun _ b hb ↦ hb.trans ?_
        rw [RxStep.mode, RxStep.reads, hp, hread, Bool.true_and, if_pos rfl]
    | false =>
        refine (rxTail_shows _ i _).mono fun _ b hb ↦ hb.trans ?_
        simp [RxStep.mode, RxStep.reads, RxStep.idles, RxStep.hollow, hp, hread]
  · refine Shows.bind (Shows.returning (rxIdle_returns i _) (rxIdle_shows _ i _)) ?_
    rintro _ _ ⟨rfl, rfl⟩
    have hno : i.pending l = false := Bool.not_eq_true _ ▸ hp
    refine (rxTail_shows _ i _).mono fun _ b hb ↦ hb.trans ?_
    cases herr : irqHas i.irq (irqCrcError ||| irqLenError ||| irqTimeout) <;>
      cases hopen : (i.sensed l).inBurst <;>
      cases hbefore : before i.deadlineNow (i.sensed l).burstDeadlineMs <;>
      simp [RxStep.mode, RxStep.reads, RxStep.idles, RxStep.hollow, hno, herr, hopen, hbefore]

theorem sensed_queue (i : RxStep) (l : RxLocals) : (i.sensed l).queue = l.queue := by
  unfold RxStep.sensed
  split <;> rfl

theorem sensed_inBurst {i : RxStep} {l : RxLocals} (h : l.inBurst = true) :
    (i.sensed l).inBurst = true := by
  unfold RxStep.sensed
  split
  · rfl
  · exact h

/-- A turn on which another follows keeps the mode true. -/
theorem ModeTrue.again {a : UInt8} {l l' : RxLocals} {i : RxStep} (h : ModeTrue l a)
    (hnext : i.next l = .again l') : ModeTrue l' (i.mode l a) := by
  obtain ⟨rfl, hopen⟩ := h
  unfold RxStep.next at hnext
  unfold RxStep.mode
  cases hread : i.reads l with
  | true =>
      rw [hread, if_pos rfl] at hnext
      rw [if_pos rfl]
      cases hmid : midBurst (i.pkt, i.rssi) with
      | true =>
          simp only [hmid, if_pos, RxNext.again.injEq] at hnext
          subst hnext
          exact ⟨by simp, fun _ ↦ rfl⟩
      | false =>
          simp only [hmid, Bool.false_eq_true, if_false] at hnext
          split at hnext
          · cases hnext
            exact ⟨rfl, fun h ↦ absurd rfl h⟩
          · cases hnext
  | false =>
      simp only [hread, Bool.false_eq_true, if_false] at hnext ⊢
      split at hnext
      · rename_i hwait
        cases hnext
        have hidle : i.idles l = true := by
          simp only [RxStep.waits, Bool.and_eq_true] at hwait
          simp [RxStep.idles, hwait.1.1.1, hwait.1.1.2, hwait.2]
        rw [hidle, if_pos rfl, ModeTrue, sensed_queue]
        exact ⟨rfl, fun hq ↦ sensed_inBurst (hopen hq)⟩
      · cases hnext

/-- The turn that ends the loop leaves the mode set exactly if it is hollow and packets are
parked. -/
theorem ModeTrue.leave {a : UInt8} {l : RxLocals} {i : RxStep} (h : ModeTrue l a)
    (hnext : i.next l = .leave) :
    i.mode l a = if i.hollow l && !l.queue.isEmpty then 1 else 0 := by
  obtain ⟨rfl, hopen⟩ := h
  unfold RxStep.next at hnext
  unfold RxStep.mode
  cases hread : i.reads l with
  | true =>
      have hfull : i.hollow l = false := by
        simp only [RxStep.reads, RxStep.readable, Bool.and_eq_true, decide_eq_true_eq] at hread
        have hne : i.rxLevel ≠ 0 := fun h ↦ absurd hread.2.1.2 (by rw [h]; decide)
        simp [RxStep.hollow, hne]
      rw [hread, if_pos rfl] at hnext
      cases hmid : midBurst (i.pkt, i.rssi) with
      | true => simp [hmid] at hnext
      | false => simp [hfull]
  | false =>
      have hstay : i.waits l = false := by
        rw [hread] at hnext
        by_contra hwait
        simp [hwait] at hnext
      simp only [Bool.false_eq_true, if_false]
      cases hhollow : i.hollow l with
      | true => cases l.queue <;> simp [RxStep.idles, hhollow]
      | false =>
          cases hidle : i.idles l with
          | false => simp
          | true =>
              have hempty : l.queue = [] := by
                by_contra hq
                have hburst := sensed_inBurst (i := i) (hopen hq)
                simp [RxStep.idles, hhollow, hburst] at hidle
                simp [RxStep.waits, hburst, hidle] at hstay
              simp [hempty]

/-! ## Programs that only reset the mode -/

/-- Where the mode is receiving, `m` leaves it so. -/
abbrev Resets {α : Type} (m : Work α) : Prop := Keeps (fun w : RadioWorker ↦ w.st.burstMode = 0) m

namespace Resets

theorem rules : ConfigRules fun m ↦ Resets m where
  pure := Keeps.pure
  read := Keeps.read
  bind := Keeps.bind
  standby := (Keeps.issue _).bind fun _ ↦ Keeps.update fun _ hw ↦ hw
  arm := Keeps.read.bind fun _ ↦ (Keeps.pure ()).ite <|
    Keeps.bind ((Keeps.issue _).bind fun _ ↦ Keeps.update fun _ hw ↦ hw) fun _ ↦
      Keeps.update fun _ _ ↦ rfl
  freq _ st := (Keeps.issue _).bind fun _ ↦
    Keeps.ite (Keeps.updating rfl (Keeps.pure st)) (Keeps.pure st)
  power _ st := (Keeps.issue _).bind fun _ ↦
    Keeps.ite (Keeps.updating rfl (Keeps.pure st)) (Keeps.pure st)
  start _ := Keeps.issue _
  store _ := Keeps.update fun _ hw ↦ hw

theorem init (gpio : ℕ) (io : InitInput) : Resets (init gpio io) := by
  refine Keeps.updating rfl <| (Keeps.issue _).bind fun _ ↦ (Keeps.issue _).bind fun _ ↦
    (rules.beginFLRC io).bind fun st ↦ Keeps.ite (Keeps.updating rfl (Keeps.pure false)) ?_
  refine (Keeps.issue _).bind fun _ ↦ Keeps.bind (fun _ _ ↦ rfl) fun _ ↦ ?_
  exact rules.arm.bind fun _ ↦ Keeps.updating rfl (Keeps.pure true)

theorem recover (prev : Int) (io : ThermalInput) : Resets (recover prev io) := by
  have hrevive : Resets (reviveRadio io) :=
    Keeps.read.bind fun w ↦ (init _ _).bind fun ok ↦
      Keeps.ite (Keeps.updating rfl (rules.applyConfig _ _).discard) (Keeps.pure ())
  exact Keeps.read.bind fun _ ↦ hrevive.ite (Keeps.ite (rules.repower _ _) (Keeps.pure ()))

theorem enterLevel (prev level : Int) (io : ThermalInput) : Resets (enterLevel prev level io) := by
  have hcut : Resets cutPower := Keeps.read.bind fun _ ↦ Keeps.ite
    (rules.standby.bind fun _ ↦ (Keeps.issue _).bind fun _ ↦ (Keeps.issue _).bind fun _ ↦
      Keeps.update fun _ hw ↦ hw)
    ((Keeps.issue _).bind fun _ ↦ (Keeps.issue _).bind fun _ ↦ Keeps.update fun _ hw ↦ hw)
  have hdrain : Resets (drainTxQ >>= reportDropped) :=
    Keeps.bind (Keeps.read.bind fun w ↦ Keeps.updating rfl (Keeps.pure w.txQ)) fun _ ↦
      Keeps.issueAll _
  exact Keeps.updating rfl <| Keeps.ite (hcut.bind fun _ ↦ hdrain) <|
    (rules.throttle io).ite ((recover prev io).ite (Keeps.pure ()))

theorem thermalTick (now : UInt32) (io : ThermalInput) : Resets (thermalTick now io) := by
  intro w hw
  obtain ⟨w', l, hsame, -, hrun⟩ := thermalTick_run now io w
  have hw' : w'.st.burstMode = 0 := (congrArg (·.st.burstMode) hsame).trans hw
  rw [hrun]
  split
  · exact hw'
  · exact enterLevel _ _ io w' hw'

theorem scanTick (now : UInt32) (freqSt : Int16) : Resets (scanTick now freqSt) := by
  have hend : Resets (endScan freqSt) := Keeps.updating rfl <| Keeps.read.bind fun _ ↦ Keeps.ite
    (rules.standby.bind fun _ ↦ (rules.freq _ _).discard.bind fun _ ↦ Keeps.updating rfl rules.arm)
    rules.arm
  have hnext : Resets (nextChannel now freqSt) := Keeps.read.bind fun _ ↦ rules.standby.bind fun _ ↦
    (rules.freq _ _).discard.bind fun _ ↦ Keeps.updating rfl rules.arm
  exact Keeps.read.bind fun _ ↦ (Keeps.pure ()).ite <| (Keeps.issue _).bind fun _ ↦
    Keeps.updating rfl <| Keeps.read.bind fun _ ↦ hend.ite hnext

end Resets

/-! ## The loop and the queue -/

theorem rxLoop_shows {a : UInt8} {l : RxLocals} (is : List RxStep) (h : ModeTrue l a) :
    Shows a (fun _ b ↦ b = if strands is l then 1 else 0) (rxLoop is l) := by
  induction is generalizing a l with
  | nil =>
      refine Shows.bind (rxIter_shows a _ l) ?_
      rintro _ _ ⟨-, rfl⟩
      have hleave : (RxStep.silent l.burstDeadlineMs).next l = .leave :=
        (rxIter_val _ l {}).symm.trans (rxIter_silent l {}).1
      have hfull : (RxStep.silent l.burstDeadlineMs).hollow l = false := by
        have hsilent : irqHas 0 irqRxDone = false := by decide
        have hshort : ¬(0 : UInt16) ≥ kPacketPayload := by decide
        simp [RxStep.hollow, RxStep.pending, hsilent, hshort]
      refine Shows.pure (Eq.trans (h.leave hleave) ?_)
      rw [hfull]
      rfl
  | cons i is ih =>
      refine Shows.bind (rxIter_shows a i l) ?_
      rintro _ _ ⟨rfl, rfl⟩
      unfold strands
      cases hnext : i.next l with
      | again l' => exact ih (h.again hnext)
      | leave => exact Shows.pure (h.leave hnext)

/-- The frames that wait are held back, or there are none. -/
def idleTx (w : RadioWorker) : Bool := txGateClosed w || w.txQ.isEmpty

theorem burstFrame_mode (frame : TxFrame) (io : BurstInput) :
    Ensures (fun w ↦ w.st.burstMode = 0) (burstFrame frame io) := by
  refine Ensures.after _ fun _ ↦ Ensures.after _ fun _ ↦ Ensures.after _ fun ok ↦ ?_
  exact Ensures.bind (fun _ ↦ rfl) fun _ ↦ Resets.rules.arm.bind fun _ ↦ Keeps.pure ok

theorem serviceTxQueue_mode (io : BurstInput) (w : RadioWorker) :
    ((serviceTxQueue io).run w).state.st.burstMode =
      if idleTx w then w.st.burstMode else 0 := by
  cases hgate : txGateClosed w with
  | true => simp [serviceTxQueue, idleTx, hgate]
  | false =>
      cases hq : w.txQ with
      | nil => simp [serviceTxQueue, popFrame, idleTx, hgate, hq]
      | cons frame rest =>
          simp only [serviceTxQueue, popFrame, idleTx, hgate, hq, run_bind, run_read,
            Bool.false_eq_true, if_false, run_update, run_pure, Outcome.prepend_state,
            Outcome.prepend_val, run_issue, List.isEmpty_cons, Bool.or_false]
          exact burstFrame_mode frame io _

theorem afterScan_mode {io : PollInput} {w : RadioWorker} (harmed : Armed w)
    (hmode : w.st.burstMode = 0) :
    ((afterScan io).run w).state.st.burstMode =
      if strands io.rx {} && idleTx w then 1 else 0 := by
  let w' : RadioWorker := ((rxLoop io.rx {}).run w).state
  have hloop : w'.st.burstMode = if strands io.rx {} then 1 else 0 :=
    (rxLoop_shows (a := 0) (l := {}) io.rx ⟨rfl, fun h ↦ absurd rfl h⟩ w harmed hmode).2
  have hkept := (RxOnly.rxLoop io.rx {} w).1
  have hidle : idleTx w' = idleTx w := by
    have hset : w'.toSettings = w.toSettings := (congrArg Prod.fst hkept :)
    have hq : w'.txQ = w.txQ := (congrArg Prod.snd hkept :)
    rw [idleTx, idleTx, txGateClosed, txGateClosed, hset, hq]
  have hrun : ((afterScan io).run w).state =
      if w'.scanActive then w' else ((serviceTxQueue io.burst).run w').state := by
    cases hactive : w'.scanActive <;>
      simp [afterScan, harmed.1, harmed.2, w', hactive]
  rw [hrun, ← hidle]
  split
  · rename_i hactive
    have hclosed : idleTx w' = true := by simp [idleTx, txGateClosed, hactive]
    rw [hloop, hclosed, Bool.and_true]
  · rw [serviceTxQueue_mode, hloop]
    cases strands io.rx {} <;> cases idleTx w' <;> rfl

/-! ## The poll -/

theorem thermalTick_queue {w : RadioWorker} {io : PollInput} (hlow : pollLevel w io < 2) :
    ((thermalTick io.nowMs io.thermal).run w).state.txQ = w.txQ := by
  obtain ⟨w', l, hsame, -, hrun⟩ := thermalTick_run io.nowMs io.thermal w
  have hq : w'.txQ = w.txQ := (congrArg (·.txQ) hsame :)
  rw [hrun]
  split
  · exact hq
  · have hcalm : Calm (enterLevel w.thermalLevel (pollLevel w io) io.thermal) := by
      have hother : (pollLevel w io == 2) = false := by
        rw [beq_eq_false_iff_ne]
        omega
      refine Frame.updating rfl ?_
      rw [hother]
      exact (Calm.rules.throttle _).ite ((Calm.rules.recover _ _).ite (Frame.pure ()))
    exact (hcalm w').1.trans hq

/-- A scan goes on behind the tick of the poll. -/
def scansOn (w : RadioWorker) (io : PollInput) : Bool :=
  w.scanActive && !recovers w io && !(leaves w io && w.toSettings.onLast)

/-- The poll sends no frame behind the loop: the role or a scan forbids it, or the queue is
empty. -/
def holdsTx (w : RadioWorker) (io : PollInput) : Bool :=
  w.cfg.role == 2 || scansOn w io || w.txQ.isEmpty

theorem Settings.leaveChannel_active (s : Settings) (now : UInt32) (freqSt : Int16) :
    (s.leaveChannel now freqSt).scanActive = (s.scanActive && !s.onLast) := by
  unfold Settings.leaveChannel
  cases hlast : s.onLast with
  | true =>
      rw [if_pos rfl, Bool.not_true, Bool.and_false]
      exact (Settings.homeward_idle _ freqSt).1
  | false => simp [Settings.onward, Settings.tunedTo]

theorem BehindGuard.scansOn {w w₁ : RadioWorker} {io : PollInput}
    {log : List (RadioWorker × Effect)} (h : BehindGuard w io w₁ log)
    (hlow : pollLevel w io < 2) :
    ((if w₁.scanActive then scanTick io.nowMs io.scanFreqSt
      else pure () : Work Unit).run w₁).state.scanActive = scansOn w io := by
  have hlast : w₁.toSettings.onLast = w.toSettings.onLast := by
    have hidx : w₁.scanIdx = w.scanIdx := (congrArg (·.2.2.1) h.ticked.sweep :)
    have hscan : w₁.scan = w.scan := (congrArg (·.1) h.ticked.sweep :)
    rw [Settings.onLast, Settings.onLast, hidx, hscan]
  rw [RadioService.scansOn, ← h.ticked.active, h.leaves hlow, ← hlast]
  cases hactive : w₁.scanActive with
  | false => simp [hactive]
  | true =>
      have hmove := (moveOn_does io.nowMs io.scanFreqSt w₁.toSettings w₁ rfl).2.1
      have hleft := (congrArg Settings.scanActive hmove).trans
        (Settings.leaveChannel_active w₁.toSettings io.nowMs io.scanFreqSt)
      cases hdwell : RadioService.dwelling w₁ io.nowMs with
      | true => simp [hactive, scanTick_run, hdwell]
      | false => simpa [hactive, scanTick_run, hdwell] using hleft

/-- A poll that gets past the level test reaches the loop with the radio armed, the mode as
before and the queue as before. -/
theorem pollOnce_loop {w : RadioWorker} {io : PollInput} (hmode : w.st.burstMode = 0)
    (harmed : Armed w) (hlow : pollLevel w io < 2) :
    ∃ w', Armed w' ∧ w'.st.burstMode = 0 ∧ idleTx w' = holdsTx w io ∧
      ((pollOnce io).run w).state = ((afterScan io).run w').state := by
  let w₁ : RadioWorker := ((thermalTick io.nowMs io.thermal).run w).state
  let w' : RadioWorker :=
    ((if w₁.scanActive then scanTick io.nowMs io.scanFreqSt else pure () : Work Unit).run w₁).state
  have hbehind : BehindGuard w io w₁ _ := thermalTick_behind io w
  have hticked := hbehind.ticked
  have hguard : Scans (if w₁.scanActive then scanTick io.nowMs io.scanFreqSt else pure ()) :=
    (Scans.scanTick _ _).ite (Frame.pure ())
  have hkept : (w'.toSettings.noScan, w'.txQ) = (w₁.toSettings.noScan, w₁.txQ) := (hguard w₁).1
  have hrole : w'.cfg.role = w.cfg.role :=
    (congrArg (·.1.cfg.role) hkept : w'.cfg.role = w₁.cfg.role).trans hticked.role
  have hok : w'.radioOk = true :=
    (congrArg (·.1.radioOk) hkept : w'.radioOk = w₁.radioOk).trans (hticked.ok harmed.1)
  have hlevel : w'.thermalLevel = pollLevel w io :=
    (congrArg (·.1.thermalLevel) hkept : w'.thermalLevel = w₁.thermalLevel).trans hticked.level
  have hq : w'.txQ = w.txQ := (congrArg Prod.snd hkept).trans (thermalTick_queue hlow)
  have hscan : w'.scanActive = scansOn w io := hbehind.scansOn hlow
  refine ⟨w', ⟨hok, hrole ▸ harmed.2⟩, ?_, ?_, ?_⟩
  · have hreset : Resets (if w₁.scanActive then scanTick io.nowMs io.scanFreqSt else pure ()) :=
      (Resets.scanTick _ _).ite (Keeps.pure ())
    exact hreset w₁ (Resets.thermalTick _ _ w hmode)
  · have hbelow : ¬2 ≤ pollLevel w io := not_le.mpr hlow
    rw [idleTx, txGateClosed, hrole, hscan, hlevel, hq, holdsTx]
    simp [hbelow]
  · have hup : ¬w₁.thermalLevel ≥ 2 := by
      rw [hticked.level]
      exact not_le.mpr hlow
    have hrun : ((pollOnce io).run w).state = ((afterTick io).run w₁).state := rfl
    rw [hrun]
    cases hactive : w₁.scanActive <;> simp [afterTick, hup, hactive, w']

/-- Behind a poll the mode is receiving again, unless the loop has ended on a hollow turn with
packets parked and no frame went out behind it. -/
theorem pollOnce_burstMode_iff {w : RadioWorker} (hmode : w.st.burstMode = 0)
    (hok : w.radioOk = true) (hrole : w.cfg.role ≠ 1) (io : PollInput) :
    ((pollOnce io).run w).state.st.burstMode = 0 ↔
      ¬(pollLevel w io < 2 ∧ strands io.rx {} = true ∧ holdsTx w io = true) := by
  by_cases hlow : pollLevel w io < 2
  · obtain ⟨w', harmed, hmode', hidle, hrun⟩ := pollOnce_loop hmode ⟨hok, hrole⟩ hlow
    rw [hrun, afterScan_mode harmed hmode', hidle]
    cases strands io.rx {} <;> cases holdsTx w io <;> simp [hlow]
  · refine iff_of_true ?_ fun h ↦ hlow h.1
    have hcut : ((thermalTick io.nowMs io.thermal).run w).state.thermalLevel ≥ 2 :=
      (not_lt.mp hlow).trans_eq (ticked_spec w io).level.symm
    have hrun : ((pollOnce io).run w).state =
        ((afterTick io).run ((thermalTick io.nowMs io.thermal).run w).state).state := rfl
    rw [hrun, afterTick_cut io hcut]
    exact Resets.thermalTick _ _ w hmode

/-- A burst of two packets is read. -/
theorem pollOnce_burstMode_burst :
    let packet idx := (⟨kMagic, 7, idx, 2, 600, 0⟩ : Header).packet
    let w := ((pollOnce { pollAt 4000 0 with rx := [.reading (packet 0), .reading (packet 1)] }).run
      booted.state).state
    w.st.packetsRx = 2 ∧ w.st.burstsRx = 1 ∧ w.st.burstMode = 0 := by
  refine ⟨by decide +kernel, by decide +kernel, ?_⟩
  exact (pollOnce_burstMode_iff (by decide) (by decide) (by decide) _).mpr
    fun h ↦ absurd h.2.1 (by decide +kernel)

/-- The first packet of a burst of two, then `RX_DONE` with an empty FIFO: the radio is idle
in receive, and this poll and the next one leave the mode set. -/
theorem burst_mode_stuck :
    let first := (⟨kMagic, 7, 0, 2, 600, 0⟩ : Header).packet
    let hollow : RxStep := { RxStep.silent 0 with irq := irqRxDone }
    let w := ((pollOnce { pollAt 4000 0 with rx := [.reading first, hollow] }).run
      booted.state).state
    booted.state.st.burstMode = 0 ∧ booted.state.radioOk = true ∧ booted.state.cfg.role ≠ 1 ∧
      w.st.burstMode = 1 ∧ w.chipMode = .receive ∧
      ((pollOnce (pollAt 8000 0)).run w).state.st.burstMode = 1 :=
  ⟨by decide, by decide, by decide, by decide +kernel, by decide +kernel, by decide +kernel⟩

end RadioService
