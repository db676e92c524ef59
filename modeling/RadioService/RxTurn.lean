import RadioService.RxDelivery

/-!
# When a turn of the receive loop is followed by another

Which way a turn goes is a matter of the answers it gets and of the locals of
the loop; the worker has no part in it.
-/

namespace RadioService

open Burst Traced

/-- A packet is pending: the IRQ word says so, or the FIFO behind a packet. -/
def RxStep.pending (i : RxStep) (l : RxLocals) : Bool :=
  irqHas i.irq irqRxDone ||
    !irqHas i.irq (packetErrors ||| irqTimeout) && l.checkFifoAfterRx &&
      decide (i.idleLevel ≥ kPacketPayload)

def RxStep.readable (i : RxStep) : Bool :=
  !irqHas i.irq packetErrors && decide (i.rxLevel ≥ kPacketPayload) && decide (i.readSt = errNone)

def RxStep.reads (i : RxStep) (l : RxLocals) : Bool := i.pending l && i.readable

def RxStep.rssi (i : RxStep) : Int16 := rssiOf i.rssiAvg i.rssiLow

/-- A packet is coming in and no burst is open. -/
def RxStep.opens (i : RxStep) (l : RxLocals) : Bool :=
  !irqHas i.irq (packetErrors ||| irqTimeout) && decide (i.idleLevel > 0) && !l.inBurst

/-- The locals behind the look at the radio. -/
def RxStep.sensed (i : RxStep) (l : RxLocals) : RxLocals :=
  if !i.pending l && i.opens l then
    { l with checkFifoAfterRx := false, inBurst := true, burstDeadlineMs := i.idleNow + 4 }
  else
    { l with checkFifoAfterRx := false }

/-- Without a packet the loop goes on inside a burst whose deadline is ahead, unless
the turn has ended the burst. -/
def RxStep.waits (i : RxStep) (l : RxLocals) : Bool :=
  !i.pending l && !irqHas i.irq (irqCrcError ||| irqLenError ||| irqTimeout) &&
    (i.sensed l).inBurst && before i.deadlineNow (i.sensed l).burstDeadlineMs

/-- What follows the turn. Behind the last packet of a burst it is another turn if the
FIFO holds more. -/
def RxStep.next (i : RxStep) (l : RxLocals) : RxNext :=
  let p := (i.pkt, i.rssi)
  if i.reads l then
    if midBurst p then
      .again ⟨true, i.burstNow + 10, l.queue ++ [p], true⟩
    else if isBurst p && decide (i.afterLevel > 0) then
      .again ⟨true, i.afterNow + (if i.afterLevel ≥ kPacketPayload then 5 else 4), [], true⟩
    else
      .leave
  else if i.waits l then
    .again (i.sensed l)
  else
    .leave

/-- From any state, `m` returns a value with `Q`. -/
def Returns {α : Type} (Q : α → Prop) (m : Work α) : Prop := ∀ w, Q (m.run w).val

namespace Returns

variable {α β : Type} {Q : α → Prop}

theorem pure {v : α} (h : Q v) : Returns Q (Pure.pure v) := fun _ ↦ h

theorem ite {c : Prop} [Decidable c] {m n : Work α} (hm : c → Returns Q m)
    (hn : ¬c → Returns Q n) : Returns Q (if c then m else n) := by
  split
  · exact hm ‹_›
  · exact hn ‹_›

theorem bind {P : β → Prop} {m : Work β} {g : β → Work α} (hm : Returns P m)
    (hg : ∀ v, P v → Returns Q (g v)) : Returns Q (m >>= g) := fun w ↦ by
  rw [run_bind, Outcome.prepend_val]
  exact hg _ (hm w) (m.run w).state

theorem mono {P : α → Prop} {m : Work α} (hm : Returns P m) (h : ∀ v, P v → Q v) :
    Returns Q m := fun w ↦ h _ (hm w)

theorem behind {m : Work β} {g : β → Work α} (hg : ∀ v, Returns Q (g v)) :
    Returns Q (m >>= g) := bind (P := fun _ ↦ True) (fun _ ↦ trivial) fun v _ ↦ hg v

end Returns

theorem rxSense_returns (i : RxStep) (l : RxLocals) :
    Returns (fun v ↦ v = (i.pending l, i.sensed l)) (rxSense i l) := by
  refine Returns.behind fun _ ↦ Returns.ite (fun hnone ↦ Returns.behind fun _ ↦ ?_) fun hsome ↦ ?_
  · rw [Bool.and_eq_true, Bool.not_eq_true', Bool.not_eq_true'] at hnone
    obtain ⟨hrx, herr⟩ := hnone
    refine Returns.ite (fun hfifo ↦ Returns.pure ?_) fun hfifo ↦
      Returns.ite (fun hopen ↦ Returns.pure ?_) fun hopen ↦ Returns.pure ?_
    · simp_all [RxStep.pending, RxStep.sensed]
    · simp_all [RxStep.pending, RxStep.sensed, RxStep.opens]
    · simp_all [RxStep.pending, RxStep.sensed, RxStep.opens]
  · refine Returns.pure ?_
    cases hrx : irqHas i.irq irqRxDone <;>
      simp_all [RxStep.pending, RxStep.sensed, RxStep.opens]

theorem rxRead_returns (i : RxStep) (l : RxLocals) :
    Returns (fun v ↦ v = if i.readable then (some (i.pkt, i.rssi), l)
      else (none, { l with inBurst := false })) (rxRead i l) := by
  refine Returns.behind fun _ ↦ Returns.ite (fun herr ↦ ?_) fun herr ↦
    Returns.ite (fun hshort ↦ ?_) fun hlong ↦ ?_
  · refine Returns.behind fun _ ↦ Returns.behind fun _ ↦ Returns.behind fun _ ↦ Returns.pure ?_
    simp [RxStep.readable, herr]
  · have hno : (none, { l with inBurst := false }) = if i.readable then
        (some (i.pkt, i.rssi), l) else (none, { l with inBurst := false }) := by
      simp [RxStep.readable, UInt16.not_le.mpr hshort]
    exact Returns.ite (fun _ ↦ Returns.behind fun _ ↦ Returns.behind fun _ ↦ Returns.pure hno)
      fun _ ↦ Returns.pure hno
  · refine Returns.behind fun _ ↦ Returns.behind fun _ ↦ Returns.ite (fun hst ↦ ?_) fun hst ↦ ?_
    · refine Returns.behind fun _ ↦ Returns.pure ?_
      have hlevel := UInt16.not_lt.mp hlong
      simp [RxStep.readable, herr, hst, hlevel, RxStep.rssi]
    · refine Returns.behind fun _ ↦ Returns.pure ?_
      simp [RxStep.readable, hst]

theorem rxIdle_returns (i : RxStep) (l : RxLocals) :
    Returns (fun v ↦ v = (none,
      if irqHas i.irq (irqCrcError ||| irqLenError ||| irqTimeout) then { l with inBurst := false }
      else l)) (rxIdle i l) := by
  refine Returns.ite (fun h ↦ ?_) fun h ↦ Returns.pure (by rw [if_neg h])
  exact Returns.behind fun _ ↦ Returns.behind fun _ ↦ Returns.pure (by rw [if_pos h])

theorem rxTail_returns (i : RxStep) (l : RxLocals) :
    Returns (fun v ↦ v = if l.inBurst && before i.deadlineNow l.burstDeadlineMs then .again l
      else .leave) (rxTail i l) := by
  refine Returns.ite (fun h ↦ Returns.pure (by rw [if_pos h])) fun h ↦ ?_
  rw [if_neg h]
  have hflush : Returns (· = RxNext.leave) (do
      deliver l.queue
      return RxNext.leave) := Returns.behind fun _ ↦ Returns.pure rfl
  exact Returns.ite (fun _ ↦ Returns.behind fun _ ↦ Returns.behind fun _ ↦
    Returns.behind fun _ ↦ hflush) fun _ ↦ hflush

theorem rxPacket_returns (i : RxStep) (p : Packet × Int16) (l : RxLocals) :
    Returns (fun v ↦ v = if midBurst p then
        .again { l with
          inBurst := true, burstDeadlineMs := i.burstNow + 10, queue := l.queue ++ [p] }
      else if isBurst p && decide (i.afterLevel > 0) then
        .again { l with
          inBurst := true
          burstDeadlineMs := i.afterNow + (if i.afterLevel ≥ kPacketPayload then 5 else 4)
          queue := [] }
      else .leave) (rxPacket i p l) := by
  unfold rxPacket midBurst isBurst
  cases hdr : decodeHeader p.1.bytes with
  | none =>
      exact Returns.behind fun _ ↦ Returns.behind fun _ ↦ Returns.behind fun _ ↦ Returns.pure rfl
  | some hdr' =>
      refine Returns.ite (fun hmid ↦ Returns.behind fun _ ↦ Returns.pure ?_) fun hlast ↦ ?_
      · simp [hmid]
      refine Returns.behind fun _ ↦ Returns.behind fun _ ↦ Returns.behind fun _ ↦
        Returns.behind fun _ ↦ Returns.ite (fun hfull ↦ Returns.pure ?_) fun hshort ↦
          Returns.ite (fun hmore ↦ Returns.pure ?_) fun hempty ↦ Returns.behind fun _ ↦ ?_
      · have hmore : i.afterLevel > 0 :=
          UInt16.lt_of_lt_of_le (show (0 : UInt16) < kPacketPayload by decide) hfull
        simp [hlast, hfull, hmore]
      · simp [hlast, hshort, hmore]
      · refine (rxTail_returns i _).mono fun v hv ↦ hv.trans ?_
        simp [hlast, hempty]

theorem rxIter_returns (i : RxStep) (l : RxLocals) :
    Returns (fun v ↦ v = i.next l) (rxIter i l) := by
  have hqueue : (i.sensed l).queue = l.queue := by
    unfold RxStep.sensed
    split <;> rfl
  have hpacket : i.reads l = true → Returns (fun v ↦ v = i.next l)
      (rxPacket i (i.pkt, i.rssi) { i.sensed l with checkFifoAfterRx := true }) := by
    refine fun hget ↦ (rxPacket_returns i _ _).mono fun v hv ↦ hv.trans ?_
    rw [RxStep.next, if_pos hget, hqueue]
  have htail : i.reads l = false → ∀ l', (l'.inBurst = false ∧ i.waits l = false ∨
      l' = i.sensed l ∧ i.waits l =
        ((i.sensed l).inBurst && before i.deadlineNow (i.sensed l).burstDeadlineMs)) →
      Returns (fun v ↦ v = i.next l) (rxTail i l') := by
    refine fun hno l' hl' ↦ (rxTail_returns i l').mono fun v hv ↦ hv.trans ?_
    have hnext : i.next l = if i.waits l then .again (i.sensed l) else .leave := by
      rw [RxStep.next, hno, if_neg Bool.false_ne_true]
    rw [hnext]
    rcases hl' with ⟨hclosed, hwaits⟩ | ⟨rfl, hwaits⟩
    · rw [hclosed, hwaits, Bool.false_and, if_neg Bool.false_ne_true, if_neg Bool.false_ne_true]
    · rw [hwaits]
  refine Returns.bind (rxSense_returns i l) ?_
  rintro _ rfl
  refine Returns.ite (fun hp ↦ Returns.bind (rxRead_returns i _) ?_) fun hp ↦
    Returns.bind (rxIdle_returns i _) ?_
  · rintro _ rfl
    cases hread : i.readable with
    | true => exact hpacket (by rw [RxStep.reads, hp, hread]; rfl)
    | false =>
        refine htail (by rw [RxStep.reads, hread, Bool.and_false]) _ (.inl ⟨rfl, ?_⟩)
        simp [RxStep.waits, hp]
  · rintro _ rfl
    have hno : i.pending l = false := Bool.not_eq_true _ ▸ hp
    refine htail (by rw [RxStep.reads, hno, Bool.false_and]) _ ?_
    cases herr : irqHas i.irq (irqCrcError ||| irqLenError ||| irqTimeout) with
    | true => exact .inl ⟨rfl, by simp [RxStep.waits, herr]⟩
    | false => exact .inr ⟨rfl, by simp [RxStep.waits, herr, hno]⟩

/-- Which way a turn goes, whatever the state of the worker. -/
theorem rxIter_val (i : RxStep) (l : RxLocals) (w : RadioWorker) :
    ((rxIter i l).run w).val = i.next l := rxIter_returns i l w

/-! ## What a turn reads -/

theorem Returns.hears {α : Type} {P : α → Prop}
    {Q : α → List (Packet × Int16) → List (Packet × Int16) → Prop} {m : Work α}
    (hP : Returns P m) (hQ : Hears Q m) : Hears (fun v rs ds ↦ P v ∧ Q v rs ds) m :=
  fun w ↦ ⟨hP w, hQ w⟩

theorem Turn.reads_once {l : RxLocals} {next : RxNext} {p : Packet × Int16}
    {rs ds : List (Packet × Int16)} (h : Turn l next ([p] ++ rs) ds) : rs = [] := by
  generalize hread : [p] ++ rs = read at h
  cases h <;> simp_all

theorem rxIter_reads (i : RxStep) (l : RxLocals) :
    Hears (fun _ rs _ ↦ rs = if i.reads l then [(i.pkt, i.rssi)] else []) (rxIter i l) := by
  refine Hears.bind ((rxSense_returns i l).hears (rxSense_hears i l)) ?_
  rintro _ _ _ ⟨rfl, -, rfl, -⟩
  have htail : ∀ l', Hears (fun _ rs _ ↦ rs = []) (rxTail i l') :=
    fun l' w ↦ (rxTail_hears i l' w).1
  refine Hears.ite (fun hp ↦ ?_) fun hp ↦ ?_
  · refine Hears.bind ((rxRead_returns i _).hears (rxRead_hears i _)) ?_
    rintro _ _ _ ⟨rfl, -, hrs, -⟩
    rw [RxStep.reads, hp, Bool.true_and]
    cases hread : i.readable with
    | true =>
        rw [hread, if_pos rfl] at hrs
        subst hrs
        refine fun w ↦ ?_
        have hnone := (rxPacket_hears i (i.pkt, i.rssi)
          { i.sensed l with checkFifoAfterRx := true } w).reads_once
        exact congrArg ([(i.pkt, i.rssi)] ++ ·) hnone
    | false =>
        rw [hread, if_neg Bool.false_ne_true] at hrs
        subst hrs
        exact htail _
  · refine Hears.bind ((rxIdle_returns i _).hears (rxIdle_hears i _)) ?_
    rintro _ _ _ ⟨rfl, -, rfl, -⟩
    have hno : i.pending l = false := Bool.not_eq_true _ ▸ hp
    rw [RxStep.reads, hno, Bool.false_and]
    exact htail _

/-! ## An endless stream -/

/-- An air packet with this header and zeros behind it. -/
def Burst.Header.packet (h : Header) : Packet :=
  ⟨h.toBytes ++ List.replicate 495 0, by rw [List.length_append, List.length_replicate]; rfl⟩

def RxStep.reading (pkt : Packet) : RxStep :=
  { RxStep.silent 0 with
    irq := irqRxDone, rxLevel := kPacketPayload, afterLevel := kPacketPayload, pkt := pkt }

theorem reading_reads (pkt : Packet) (l : RxLocals) : (RxStep.reading pkt).reads l = true := by
  have hirq : irqHas irqRxDone irqRxDone = true := by decide
  have hreadable : (RxStep.reading pkt).readable = true := (by decide : RxStep.readable
    { RxStep.silent 0 with irq := irqRxDone, rxLevel := kPacketPayload } = true)
  rw [RxStep.reads, hreadable, Bool.and_true, RxStep.pending]
  exact (congrArg (· || _) hirq).trans (Bool.true_or _)

theorem reading_pkt (pkt : Packet) : (RxStep.reading pkt).pkt = pkt := rfl

theorem reading_rssi (pkt : Packet) : (RxStep.reading pkt).rssi = 0 :=
  (by decide : rssiOf 0 0 = 0)

theorem reading_goesOn {pkt : Packet} (hburst : isBurst (pkt, 0) = true) (l : RxLocals) :
    ∃ l', (RxStep.reading pkt).next l = .again l' := by
  have hmore : (RxStep.reading pkt).afterLevel > 0 := (by decide : kPacketPayload > 0)
  rw [RxStep.next, if_pos (reading_reads pkt l), reading_rssi, reading_pkt, hburst,
    decide_eq_true hmore]
  split <;> exact ⟨_, rfl⟩

/-- As long as packets of a burst come, all of them are read. -/
theorem rxLoop_reads_all {pkt : Packet} (hburst : isBurst (pkt, 0) = true) (n : ℕ) (l : RxLocals) :
    Hears (fun _ rs _ ↦ rs = List.replicate n (pkt, 0))
      (rxLoop (List.replicate n (RxStep.reading pkt)) l) := by
  induction n generalizing l with
  | zero =>
      intro w
      have hlog : ((rxLoop [] l).run w).log =
          ((rxIter (.silent l.burstDeadlineMs) l).run w).log := by
        simp [rxLoop]
      exact (congrArg readPackets hlog).trans (rxIter_silent l w).2.1
  | succ n ih =>
      refine Hears.bind ((rxIter_returns _ l).hears (rxIter_reads _ l)) ?_
      rintro _ _ ds ⟨rfl, rfl⟩
      obtain ⟨l', hl'⟩ := reading_goesOn hburst l
      rw [hl', reading_reads, if_pos rfl, reading_rssi, List.replicate_succ]
      exact fun w ↦ congrArg ((pkt, 0) :: ·) (ih l' w)

end RadioService
