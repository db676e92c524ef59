import RadioService.Hearing

/-!
# The counters of received traffic

What the counters of the worker say of its log: `packetsRx` and its two copies
count the packets read, `burstsRx` those handed up that end a burst, the two
counts of CRC errors agree, and the spare fields are never written.
-/

namespace RadioService

open Burst Stats Traced Machine

/-! ## Accounts -/

/-- The last packet of a burst. -/
def closesBurst (pkt : List UInt8) : Bool :=
  !(decodeHeader pkt).any fun hdr ↦ hdr.packetIdx.toNat + 1 < hdr.totalPackets.toNat

theorem midBurst_eq_not (p : Packet × Int16) : midBurst p = !closesBurst p.1.bytes :=
  (Bool.not_not _).symm

/-- The counters without those that count on their own; a copy of a counter is
taken relative to it. -/
def Stats.Counters.spare (c : Counters) : Counters :=
  { c with
    burstsTx := 0, burstsRx := 0, packetsTx := 0, packetsRx := 0, crcErrors := 0
    hostTxDropped := 0, burstMode := 0, pendingTxValid := 0, restartRxPending := 0
    uptimeMs := 0, hwLengthErrors := 0, parserFramesKilled := 0
    hwReceivedPackets := c.hwReceivedPackets - c.packetsRx
    hwCrcOk := c.hwCrcOk - c.packetsRx
    hwCrcErrors := c.hwCrcErrors - c.crcErrors }

/-- The counters of received traffic. -/
def Stats.Counters.received (c : Counters) : Counters × UInt32 × UInt32 :=
  (c.spare, c.packetsRx, c.burstsRx)

def heardCount (es : List Effect) : UInt32 := UInt32.ofNat (heardPackets es).length

def closedCount (es : List Effect) : UInt32 :=
  UInt32.ofNat ((handedUp es).countP fun p ↦ closesBurst p.1.bytes)

@[simp] theorem heardCount_append (es es' : List Effect) :
    heardCount (es ++ es') = heardCount es + heardCount es' := by
  simp [heardCount]

@[simp] theorem closedCount_append (es es' : List Effect) :
    closedCount (es ++ es') = closedCount es + closedCount es' := by
  simp [closedCount]

/-- From `c` to `c'` the counters have counted what is in `es`. -/
structure Booked (c : Counters) (es : List Effect) (c' : Counters) : Prop where
  spare : c'.spare = c.spare
  packets : c'.packetsRx = c.packetsRx + heardCount es
  bursts : c'.burstsRx = c.burstsRx + closedCount es

theorem Booked.trans {c c' c'' : Counters} {es es' : List Effect} (h : Booked c es c')
    (h' : Booked c' es' c'') : Booked c (es ++ es') c'' where
  spare := h'.spare.trans h.spare
  packets := by rw [h'.packets, h.packets, heardCount_append, UInt32.add_assoc]
  bursts := by rw [h'.bursts, h.bursts, closedCount_append, UInt32.add_assoc]

/-- Effects that neither read nor hand up, and counters of other things. -/
theorem Booked.of_deaf {c c' : Counters} {es : List Effect} (h : c'.received = c.received)
    (hdeaf : ∀ e ∈ es, e.deaf = true) : Booked c es c' := by
  have hheard : heardPackets es = [] :=
    List.filterMap_eq_nil_iff.mpr fun e he ↦ Effect.read?_of_deaf (hdeaf e he)
  have hhanded : handedUp es = [] :=
    List.filterMap_eq_nil_iff.mpr fun e he ↦ Effect.delivered?_of_deaf (hdeaf e he)
  refine ⟨congrArg Prod.fst h, ?_, ?_⟩
  · rw [heardCount, hheard]
    exact (congrArg (fun t ↦ t.2.1) h).trans (UInt32.add_zero _).symm
  · rw [closedCount, hhanded]
    exact (congrArg (fun t ↦ t.2.2) h).trans (UInt32.add_zero _).symm

/-- `m` keeps the accounts. -/
def Books {α : Type} (m : Work α) : Prop := ∀ w, Booked w.st (m.run w).events (m.run w).state.st

/-- `m` leaves them alone. -/
abbrev Still {α : Type} (m : Work α) : Prop :=
  Frame (fun w : RadioWorker ↦ w.st.received) (fun _ e ↦ e.deaf = true) m

theorem Still.books {α : Type} {m : Work α} (h : Still m) : Books m := by
  intro w
  refine Booked.of_deaf (h w).1 fun e he ↦ ?_
  obtain ⟨p, hp, rfl⟩ := List.mem_map.mp he
  exact ((h w).2 p hp).2

theorem SetsUp.still {α : Type} {m : Work α} (h : SetsUp m) : Still m :=
  Frame.comp (f := RadioWorker.traffic) (fun t ↦ t.st.received)
    (fun _ _ he ↦ Effect.deaf_of_quiet (Effect.quiet_of_setup he)) h

namespace Books

variable {α β : Type}

/-- What is bound may rely on what `m` returns. -/
theorem bind_of (P : α → Prop) {m : Work α} {g : α → Work β} (hval : ∀ w, P (m.run w).val)
    (hm : Books m) (hg : ∀ a, P a → Books (g a)) : Books (m >>= g) := by
  intro w
  rw [run_bind, Outcome.events_prepend, Outcome.prepend_state]
  exact (hm w).trans (hg (m.run w).val (hval w) (m.run w).state)

theorem bind {m : Work α} {g : α → Work β} (hm : Books m) (hg : ∀ a, Books (g a)) :
    Books (m >>= g) := bind_of (fun _ ↦ True) (fun _ ↦ trivial) hm fun a _ ↦ hg a

theorem pure (a : α) : Books (Pure.pure a : Work α) := Still.books (Frame.pure a)

theorem read : Books (read : Work RadioWorker) := Still.books Frame.read

theorem ite {c : Prop} [Decidable c] {m n : Work α} (hm : Books m) (hn : Books n) :
    Books (if c then m else n) := by
  split <;> assumption

theorem discard {m : Work α} (hm : Books m) : Books (Functor.discard m) :=
  hm.bind fun _ ↦ pure ()

end Books

/-! ## Programs that leave the accounts alone -/

namespace Still

theorem rules : GuardRules fun m ↦ Still m := SetsUp.rules.lift Frame.bind SetsUp.still

theorem arm : Still armReceive := rules.arm

theorem thermalTick (now : UInt32) (io : ThermalInput) : Still (thermalTick now io) :=
  rules.thermalTick now io (Frame.update fun _ ↦ rfl)
    (readLevel_sensorOnly io.reading).setsUp.still (drain_frame (fun _ ↦ rfl) fun _ _ ↦ rfl)

theorem beginScan (p : ScanParams) (now : UInt32) (freqSt : Int16) :
    Still (beginScan p now freqSt) :=
  Frame.updating rfl <| Frame.read.bind fun _ ↦ Frame.ite (rules.standby.bind fun _ ↦
    (rules.freq _ _).discard.bind fun _ ↦ Frame.updating rfl arm) (Frame.pure ())

theorem startScan (p : ScanParams) (now : UInt32) (freqSt : Int16) :
    Still (startScan p now freqSt) :=
  Frame.read.bind fun _ ↦
    Frame.ite (Frame.updating rfl (beginScan p now freqSt)) (beginScan p now freqSt)

theorem endScan (freqSt : Int16) : Still (endScan freqSt) :=
  Frame.updating rfl <| Frame.read.bind fun _ ↦ Frame.ite (rules.standby.bind fun _ ↦
    (rules.freq _ _).discard.bind fun _ ↦ Frame.updating rfl arm) arm

theorem nextChannel (now : UInt32) (freqSt : Int16) : Still (nextChannel now freqSt) :=
  Frame.read.bind fun _ ↦ rules.standby.bind fun _ ↦ (rules.freq _ _).discard.bind fun _ ↦
    Frame.updating rfl arm

theorem scanTick (now : UInt32) (freqSt : Int16) : Still (scanTick now freqSt) :=
  Frame.read.bind fun _ ↦ (Frame.pure ()).ite <| Frame.bind (Frame.issue fun _ ↦ rfl) fun _ ↦
    Frame.updating rfl <| Frame.read.bind fun _ ↦ (endScan freqSt).ite (nextChannel now freqSt)

/-! ### Bursts -/

theorem waitTxDone (deadline : UInt32) (polls : List TxPoll) :
    Still (waitTxDone deadline polls) := by
  induction polls with
  | nil => exact Frame.pure false
  | cons p ps ih =>
      refine Frame.ite ?_ (Frame.pure false)
      exact Frame.bind (Frame.issue fun _ ↦ rfl) fun _ ↦
        (Frame.pure true).ite ((Frame.pure false).ite ih)

theorem tryPacket (frame : TxFrame) (pkt : List UInt8) (attempt : ℕ → Attempt) (k n : ℕ) :
    Still (tryPacket frame pkt attempt k n) := by
  induction n generalizing k with
  | zero => exact Frame.pure false
  | succ n ih =>
      have hstart : Still (startTransmit frame pkt (attempt k).st) :=
        Frame.bind (Frame.issue fun _ ↦ rfl) fun _ ↦ Frame.updating rfl (Frame.pure _)
      have hfinish : Still finishTransmit :=
        Frame.bind (Frame.issue fun _ ↦ rfl) fun _ ↦ Frame.update fun _ ↦ rfl
      have hrest : Still (do
          let st ← startTransmit frame pkt (attempt k).st
          if st ≠ errNone then
            RadioService.tryPacket frame pkt attempt (k + 1) n
          else
            let done ← RadioService.waitTxDone ((attempt k).startMs + 25) (attempt k).polls
            finishTransmit
            if done then
              return true
            else
              RadioService.tryPacket frame pkt attempt (k + 1) n) :=
        hstart.bind fun _ ↦ (ih (k + 1)).ite <| (waitTxDone _ _).bind fun _ ↦
          hfinish.bind fun _ ↦ (Frame.pure true).ite (ih (k + 1))
      exact Frame.ite (rules.standby.bind fun _ ↦ hrest) hrest

theorem sendPackets (frame : TxFrame) (id total : UInt16) (crc : UInt32)
    (attempt : ℕ → ℕ → Attempt) (idx n : ℕ) :
    Still (sendPackets frame id total crc attempt idx n) := by
  induction n generalizing idx with
  | zero => exact Frame.pure true
  | succ n ih =>
      exact (tryPacket _ _ _ _ _).bind fun _ ↦
        (Frame.pure false).ite (Frame.updating rfl (ih (idx + 1)))

theorem burstFrame (frame : TxFrame) (io : BurstInput) : Still (burstFrame frame io) := by
  have hburst : Still (transmitBurst frame io) :=
    (Frame.pure false).ite <| Frame.read.bind fun _ ↦
      Frame.updating rfl (sendPackets _ _ _ _ _ _ _)
  exact rules.standby.bind fun _ ↦ Frame.updating rfl <| hburst.bind fun ok ↦
    Frame.updating rfl <| arm.bind fun _ ↦ Frame.pure ok

theorem serviceTxQueue (io : BurstInput) : Still (serviceTxQueue io) := by
  have hpop : Still popFrame := by
    unfold popFrame
    refine Frame.read.bind fun w ↦ ?_
    split
    · exact Frame.pure none
    · exact Frame.updating rfl (Frame.pure _)
  refine Frame.read.bind fun w ↦ (Frame.pure ()).ite (hpop.bind fun frame ↦ ?_)
  cases frame with
  | none => exact Frame.pure ()
  | some frame => exact (burstFrame frame io).bind fun _ ↦ Frame.issue fun _ ↦ rfl

theorem enqueueTx (frame : TxFrame) : Still (enqueueTx frame) :=
  Frame.read.bind fun _ ↦ (Frame.pure _).ite <| Frame.read.bind fun _ ↦
    Frame.ite (Frame.updating rfl (Frame.pure _)) (Frame.updating rfl (Frame.pure _))

end Still

/-! ## Receiving -/

/-- Packets are parked in the middle of a burst only. -/
theorem Turn.parked {l l' : RxLocals} {rs ds : List (Packet × Int16)}
    (hturn : Turn l (.again l') rs ds) (h : ∀ p ∈ l.queue, midBurst p = true) :
    ∀ p ∈ l'.queue, midBurst p = true := by
  cases hturn with
  | wait hq => exact hq ▸ h
  | park hp hq =>
      rw [hq]
      exact List.forall_mem_append.mpr ⟨h, List.forall_mem_singleton.mpr hp⟩
  | finish hp hlast hq =>
      rw [hq]
      exact fun _ hp ↦ absurd hp List.not_mem_nil

theorem sub_succ (a b : UInt32) : a + 1 - (b + 1) = a - b := by
  grind

theorem received_countCrcError (w : RadioWorker) :
    (countCrcError w).st.received = w.st.received := by
  have hdiff : w.st.hwCrcErrors + 1 - (w.st.crcErrors + 1) =
      w.st.hwCrcErrors - w.st.crcErrors := sub_succ _ _
  simp [countCrcError, Counters.received, Counters.spare, hdiff]

theorem Still.rxSense (i : RxStep) (l : RxLocals) : Still (rxSense i l) :=
  Frame.bind (Frame.issue fun _ ↦ rfl) fun _ ↦ Frame.ite
    (Frame.bind (Frame.issue fun _ ↦ rfl) fun _ ↦
      (Frame.pure _).ite ((Frame.pure _).ite (Frame.pure _)))
    (Frame.pure _)

theorem Still.rxIdle (i : RxStep) (l : RxLocals) : Still (rxIdle i l) := by
  refine Frame.ite ((Frame.update fun w ↦ ?_).bind fun _ ↦ arm.bind fun _ ↦ Frame.pure _)
    (Frame.pure _)
  split
  · exact received_countCrcError w
  · split <;> rfl

namespace Books

variable {α : Type}

/-- A packet read and counted. -/
theorem reading (pkt : Packet) (rssi : Int16) : Books (do
    radioCall (.readData pkt rssi errNone)
    update (countRead pkt rssi)) := by
  intro w
  have hreceived := sub_succ w.st.hwReceivedPackets w.st.packetsRx
  have hok := sub_succ w.st.hwCrcOk w.st.packetsRx
  refine ⟨?_, rfl, ?_⟩
  · simp [countRead, Counters.spare, radioCall, hreceived, hok]
  · exact (UInt32.add_zero _).symm

theorem asking {op : RadioOp} {m : Work α} (hop : (Effect.radio op).deaf = true)
    (hm : Books m) : Books (radioCall op >>= fun _ ↦ m) :=
  (Still.books (Frame.issue fun _ ↦ hop)).bind fun _ ↦ hm

theorem rxRead (i : RxStep) (l : RxLocals) : Books (rxRead i l) := by
  have hleave : ∀ a : Option (Packet × Int16) × RxLocals,
      Books (armReceive >>= fun _ ↦ (Pure.pure a : Work _)) := fun a ↦
    Still.arm.books.bind fun _ ↦ pure a
  refine asking rfl (ite ?_ (ite ?_ (asking rfl ?_)))
  · refine (Still.books (Frame.update fun w ↦ ?_)).bind fun _ ↦ asking rfl (hleave _)
    split
    · exact received_countCrcError w
    · rfl
  · exact ite (asking rfl (hleave _)) (pure _)
  · by_cases hst : i.readSt = errNone
    · rw [hst]
      simp only [if_pos]
      rw [← bind_assoc]
      exact (reading _ _).bind fun _ ↦ pure _
    · simp only [if_neg hst]
      have hfail : Books (radioCall (.readData i.pkt (rssiOf i.rssiAvg i.rssiLow) i.readSt)) := by
        intro w
        have hheard : heardCount
            [.radio (.readData i.pkt (rssiOf i.rssiAvg i.rssiLow) i.readSt)] = 0 := by
          simp [heardCount, heardPackets, Effect.read?, hst]
        refine ⟨rfl, ?_, (UInt32.add_zero _).symm⟩
        exact (hheard ▸ UInt32.add_zero _).symm
      exact hfail.bind fun _ ↦ hleave _

/-- Packets handed up, and counters of received traffic that have counted those
that end a burst. -/
theorem of_handed {c c' : Counters} {ps : List (Packet × Int16)} (hspare : c'.spare = c.spare)
    (hpackets : c'.packetsRx = c.packetsRx)
    (hbursts : c'.burstsRx = c.burstsRx + UInt32.ofNat (ps.countP fun p ↦ closesBurst p.1.bytes)) :
    Booked c (ps.map fun p ↦ .onRxPacket p.1 p.2) c' := by
  have hheard : heardPackets (ps.map fun p ↦ .onRxPacket p.1 p.2) = [] := by
    simp [heardPackets, Effect.read?, List.filterMap_map, Function.comp_def]
  have hhanded : handedUp (ps.map fun p ↦ .onRxPacket p.1 p.2) = ps := by
    simp [handedUp, Effect.delivered?, List.filterMap_map, Function.comp_def]
  refine ⟨hspare, ?_, ?_⟩
  · rw [heardCount, hheard]
    exact hpackets.trans (UInt32.add_zero _).symm
  · rw [closedCount, hhanded]
    exact hbursts

theorem deliver_events (ps : List (Packet × Int16)) (w : RadioWorker) :
    ((RadioService.deliver ps).run w).events = ps.map fun p ↦ .onRxPacket p.1 p.2 := by
  simp [RadioService.deliver, Outcome.events, Function.comp_def]

theorem countP_parked {q : List (Packet × Int16)} (h : ∀ p ∈ q, midBurst p = true) :
    (q.countP fun p ↦ closesBurst p.1.bytes) = 0 := by
  refine List.countP_eq_zero.mpr fun p hp ↦ ?_
  have hmid := h p hp
  rw [midBurst_eq_not] at hmid
  simpa using hmid

theorem deliver {ps : List (Packet × Int16)} (h : ∀ p ∈ ps, midBurst p = true) :
    Books (deliver ps) := by
  intro w
  rw [deliver_events]
  refine of_handed rfl rfl ?_
  rw [countP_parked h]
  exact (UInt32.add_zero _).symm

/-- The end of a burst is counted, and handed up behind the packets parked. -/
theorem closing {q : List (Packet × Int16)} {p : Packet × Int16}
    (h : ∀ p ∈ q, midBurst p = true) (hp : midBurst p = false) : Books (do
    update fun w ↦ { w with st := { w.st with burstsRx := w.st.burstsRx + 1 } }
    RadioService.deliver (q ++ [p])) := by
  intro w
  have hcloses : closesBurst p.1.bytes = true := by
    rw [midBurst_eq_not] at hp
    simpa using hp
  rw [run_bind, run_update, Outcome.events_prepend, deliver_events]
  refine of_handed rfl rfl ?_
  rw [List.countP_append, countP_parked h, List.countP_singleton, if_pos hcloses]
  rfl

theorem mode (mode : UInt8) {m : Work α} (hm : Books m) :
    Books (update (setBurstMode mode) >>= fun _ ↦ m) :=
  have hstill : Still (update (setBurstMode mode)) := Frame.update fun _ ↦ rfl
  hstill.books.bind fun _ ↦ hm

theorem rxTail (i : RxStep) {l : RxLocals} (h : ∀ p ∈ l.queue, midBurst p = true) :
    Books (rxTail i l) := by
  have hleave : Books (do
      RadioService.deliver l.queue
      return RxNext.leave) := (deliver h).bind fun _ ↦ pure _
  refine ite (pure _) (ite ?_ hleave)
  exact asking rfl <| Still.arm.books.bind fun _ ↦ mode 0 hleave

theorem rxPacket (i : RxStep) (p : Packet × Int16) {l : RxLocals}
    (h : ∀ p ∈ l.queue, midBurst p = true) : Books (rxPacket i p l) := by
  unfold RadioService.rxPacket
  cases hdr : decodeHeader p.1.bytes with
  | none => exact asking rfl (Still.arm.books.bind fun _ ↦ mode 0 (pure _))
  | some header =>
      dsimp only
      split
      · exact mode 1 (pure _)
      · rename_i hlast
        have hp : midBurst p = false := by simpa [midBurst, hdr] using hlast
        have hclosed : ∀ {m : Work RxNext}, Books m → Books (do
            update fun w ↦ { w with st := { w.st with burstsRx := w.st.burstsRx + 1 } }
            RadioService.deliver (l.queue ++ [p])
            m) := by
          intro m hm
          rw [← bind_assoc]
          exact (closing h hp).bind fun _ ↦ hm
        refine mode 0 (hclosed (asking rfl ?_))
        refine ite (pure _) (ite (pure _) (asking rfl (rxTail i ?_)))
        exact fun _ hp ↦ absurd hp List.not_mem_nil

theorem rxIter (i : RxStep) {l : RxLocals} (h : ∀ p ∈ l.queue, midBurst p = true) :
    Books (rxIter i l) := by
  refine bind_of (fun v ↦ v.2.queue = l.queue) (fun w ↦ (rxSense_hears i l w).1)
    (Still.rxSense i l).books ?_
  rintro ⟨hasRx, l₁⟩ hq₁
  refine ite (bind_of (fun v ↦ v.2.queue = l₁.queue) (fun w ↦ (rxRead_hears i l₁ w).1)
    (rxRead i l₁) ?_) (bind_of (fun v ↦ v.2.queue = l₁.queue)
      (fun w ↦ (rxIdle_hears i l₁ w).1) (Still.rxIdle i l₁).books ?_)
  all_goals
    rintro ⟨got, l₂⟩ hq₂
    have hparked : ∀ p ∈ l₂.queue, midBurst p = true := (hq₂.trans hq₁).symm ▸ h
    cases got with
    | some p => exact rxPacket i p hparked
    | none => exact rxTail i hparked

theorem rxLoop (is : List RxStep) {l : RxLocals} (h : ∀ p ∈ l.queue, midBurst p = true) :
    Books (rxLoop is l) := by
  induction is generalizing l with
  | nil => exact (rxIter _ h).discard
  | cons i is ih =>
      refine bind_of (fun next ↦ ∀ l', next = .again l' →
        ∀ p ∈ l'.queue, midBurst p = true) ?_ (rxIter i h) ?_
      · intro w l' hnext
        exact (hnext ▸ rxIter_hears i l w).parked h
      · intro next hparked
        cases next with
        | again l' => exact ih (hparked l' rfl)
        | leave => exact pure _

theorem pollOnce (io : PollInput) : Books (pollOnce io) := by
  have hgated : ∀ w : RadioWorker, Books (do
      if !w.scanActive then
        serviceTxQueue io.burst : Work Unit) :=
    fun w ↦ ite (Still.serviceTxQueue io.burst).books (pure ())
  have hrest : Books (afterScan io) := read.bind fun w ↦ ite (pure ()) <|
    ite (hgated w) <| (rxLoop io.rx fun _ hp ↦ absurd hp List.not_mem_nil).bind fun _ ↦
      read.bind hgated
  rw [pollOnce_eq]
  exact (Still.thermalTick _ _).books.bind fun _ ↦ read.bind fun w ↦ ite (pure ()) <|
    ite ((Still.scanTick _ _).books.bind fun _ ↦ hrest) hrest

end Books

end RadioService
