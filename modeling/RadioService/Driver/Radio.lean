import RadioService.Driver.Bus
import RadioService.Relay
import RadioService.RxFifo

/-!
# The worker over its driver

A run of the worker records its calls into the driver together with the answers.
Here the calls are made: a board whose driver answers every call as recorded has
put bursts of queued frames on the air, and has taken from its chip what the
worker hands up.
-/

namespace RadioService.Driver

open Burst Machine Fifos

open Traced hiding run

/-! ## Calls -/

/-- What the calls of the driver depend on: the answers of the chip, arithmetic in
floating point, and the calls that start the radio. -/
structure Board where
  miso : ℕ → ℕ → UInt8
  toHz : UInt32 → UInt32
  isLow : UInt32 → Bool
  boot : RadioOp → Spi Bool
  /-- Starting the radio neither sends nor receives. -/
  boot_off : ∀ op, OffFifo (boot op)

/-- One call, and whether it answers as recorded. -/
structure Exchange where
  op : RadioOp
  transfers : List Transfer
  agrees : Bool
deriving DecidableEq

namespace Board

variable (b : Board)

/-- A call of the worker; what a call without an answer reports is not looked at. -/
def perform : RadioOp → Spi Bool
  | .standby => do
    discard (standby b.miso)
    return true
  | .setFrequency hz st => return decide ((← setFrequency b.miso b.toHz b.isLow hz) = st)
  | .setOutputPower dbm st => return decide ((← setOutputPower b.miso dbm) = st)
  | .startReceive => do
    discard (startReceive b.miso)
    return true
  | .startTransmit _ pkt st => return decide ((← startTransmit b.miso pkt) = st)
  | .finishTransmit => do
    discard (finishTransmit b.miso)
    return true
  | .getClearIrqStatus irq => return decide ((← getClearIrqStatus b.miso) = irq)
  | .getRxFifoLevel level => return decide ((← getRxFifoLevel b.miso) = level)
  | .getPacketStatusFLRC rssi => do
    let answer ← getPacketStatusFLRC b.miso
    return decide (rssiOf answer.2.1 answer.2.2 = rssi)
  | .readData pkt _ st => do
    let answer ← readData b.miso kPacketPayload.toNat
    return decide (answer.1 = st ∧ (st = errNone → answer.2 = pkt.bytes))
  | .clearRxBuffer => do
    discard (clearRxBuffer b.miso)
    return true
  | op => b.boot op

def step : Step LR2021 RadioOp Exchange := fun d op ↦
  let r := (b.perform op).run d
  (r.state, [⟨op, r.events, r.val⟩])

end Board

/-- What the calls in a log do on the bus, one after the other. -/
def Board.exchanges (b : Board) (d : LR2021) (es : List Effect) : List Exchange :=
  (run b.step d (radioOps es)).2

/-- The packets that the chip is told to send. -/
def sentPackets (xs : List Exchange) : List (List UInt8) :=
  (obey txFifoOp? [] (xs.flatMap Exchange.transfers)).2

/-- The bytes that a read without an error takes from the chip. -/
def Exchange.read? (x : Exchange) : Option (List UInt8) :=
  match x.op with
  | .readData _ _ st => if st = errNone then some (popped x.transfers) else none
  | _ => none

/-! ## One call -/

section

variable {b : Board} {d : LR2021} {op : RadioOp}

theorem perform_off (hsend : ∀ frame pkt st, op ≠ .startTransmit frame pkt st)
    (hread : ∀ pkt rssi st, op ≠ .readData pkt rssi st) : OffFifo (b.perform op) := by
  have hdone : ∀ {α : Type} {m : Spi α}, OffFifo m → OffFifo (do discard m; return true) :=
    fun hm ↦ (hm.bind fun _ ↦ .pure ()).bind fun _ ↦ .pure true
  cases op with
  | beginCommon st => exact b.boot_off _
  | calibrate st => exact b.boot_off _
  | applyProfile => exact b.boot_off _
  | standby => exact hdone (standby_off b.miso)
  | setFrequency hz st => exact (setFrequency_off b.miso b.toHz b.isLow hz).bind fun _ ↦ .pure _
  | setOutputPower dbm st => exact (setOutputPower_off b.miso dbm).bind fun _ ↦ .pure _
  | startReceive => exact hdone (startReceive_off b.miso)
  | startTransmit frame pkt st => exact absurd rfl (hsend frame pkt st)
  | finishTransmit => exact hdone (finishTransmit_off b.miso)
  | getClearIrqStatus irq => exact (getClearIrqStatus_off b.miso).bind fun _ ↦ .pure _
  | getRxFifoLevel level => exact (getRxFifoLevel_off b.miso).bind fun _ ↦ .pure _
  | getPacketStatusFLRC rssi => exact (getPacketStatusFLRC_off b.miso).bind fun _ ↦ .pure _
  | readData pkt rssi st => exact absurd rfl (hread pkt rssi st)
  | clearRxBuffer => exact hdone (clearRxBuffer_off b.miso)

/-- What a call that answers as recorded does to the FIFOs, whatever the sender's
holds. -/
structure Honest (op : RadioOp) (r : Outcome LR2021 Transfer Bool) : Prop where
  ready : Ready r.state
  sends : r.val = true → ∀ q, (Effect.radio op).MaySend (obey txFifoOp? q r.events).2
  reads : r.val = true → Exchange.read? ⟨op, r.events, r.val⟩ =
    (Effect.radio op).read?.map fun p ↦ p.1.bytes

theorem Honest.of_off {m : Spi Bool} (hm : OffFifo m) (hd : Ready d)
    (hsend : (Effect.radio op).MaySend [])
    (hread : ∀ ts agrees, Exchange.read? ⟨op, ts, agrees⟩ =
      (Effect.radio op).read?.map fun p ↦ p.1.bytes) : Honest op (m.run d) := by
  refine ⟨(hm d hd).1, fun _ q ↦ ?_, fun _ ↦ hread _ _⟩
  rw [hm.obeys hd q]
  exact hsend

theorem run_decide {α : Type} (m : Spi α) (p : α → Bool) (d : LR2021) :
    (m >>= fun a ↦ pure (p a) : Spi Bool).run d =
      ⟨p (m.run d).val, (m.run d).state, (m.run d).log⟩ := by
  rw [run_bind, run_pure, Outcome.prepend_mk, List.append_nil]

theorem perform_honest (hd : Ready d) (op : RadioOp) : Honest op ((b.perform op).run d) := by
  cases op with
  | startTransmit frame pkt st =>
      obtain hsends := fun q ↦ startTransmit_sends b.miso hd pkt q
      have hrun := run_decide (startTransmit b.miso pkt) (fun st' ↦ decide (st' = st)) d
      have hperform : (b.perform (.startTransmit frame pkt st)).run d = _ := hrun
      rw [hperform]
      refine ⟨(hsends []).ready, fun hst q ↦ ?_, fun _ ↦ rfl⟩
      have hst' : ((startTransmit b.miso pkt).run d).val = st := of_decide_eq_true hst
      rcases (hsends q).sent with hsent | ⟨hsent, hfailed⟩
      · exact .inl hsent
      · exact .inr ⟨hsent, hst' ▸ hfailed⟩
  | readData pkt rssi st =>
      have hfits : kPacketPayload.toNat ≤ spiMaxReadWriteLen := by decide
      have hpops := readData_pops b.miso hd hfits
      have hrun := run_decide (readData b.miso kPacketPayload.toNat)
        (fun answer ↦ decide (answer.1 = st ∧ (st = errNone → answer.2 = pkt.bytes))) d
      have hperform : (b.perform (.readData pkt rssi st)).run d = _ := hrun
      rw [hperform]
      refine ⟨hpops.ready, fun _ q ↦ ?_, fun hst ↦ ?_⟩
      · exact congrArg Prod.snd (obey_silent hpops.unsent q)
      · obtain ⟨-, hbytes⟩ := of_decide_eq_true hst
        by_cases hnone : st = errNone
        · have hrecorded : (Effect.radio (.readData pkt rssi st)).read? = some (pkt, rssi) :=
            if_pos hnone
          rw [hrecorded]
          exact (if_pos hnone).trans (congrArg some (hpops.popped.trans (hbytes hnone)))
        · have hrecorded : (Effect.radio (.readData pkt rssi st)).read? = none := if_neg hnone
          rw [hrecorded]
          exact if_neg hnone
  | _ => exact .of_off (perform_off nofun nofun) hd rfl fun _ _ ↦ rfl

/-! ## Runs -/

theorem run_honest (hd : Ready d) {ops : List RadioOp}
    (hagrees : ∀ x ∈ (run b.step d ops).2, x.agrees = true) (q : List UInt8) :
    Yields (fun op ↦ (Effect.radio op).MaySend) ops
        (obey txFifoOp? q ((run b.step d ops).2.flatMap Exchange.transfers)).2 ∧
      (run b.step d ops).2.filterMap Exchange.read? =
        ops.filterMap fun op ↦ (Effect.radio op).read?.map fun p ↦ p.1.bytes := by
  induction ops generalizing d q with
  | nil => exact ⟨rfl, rfl⟩
  | cons op ops ih =>
      let r := (b.perform op).run d
      obtain ⟨hready, hsends, hreads⟩ : Honest op r := perform_honest hd op
      have hxs : (run b.step d (op :: ops)).2 =
          ⟨op, r.events, r.val⟩ :: (run b.step r.state ops).2 := by
        rw [run_cons]
        rfl
      rw [hxs] at hagrees ⊢
      obtain ⟨hval, hrest⟩ := List.forall_mem_cons.mp hagrees
      obtain ⟨hsent, hread⟩ := ih hready hrest (obey txFifoOp? q r.events).1
      refine ⟨?_, ?_⟩
      · rw [List.flatMap_cons, obey_append]
        exact ⟨_, _, rfl, hsends hval q, hsent⟩
      · rw [List.filterMap_cons, List.filterMap_cons, hreads hval, hread]

/-- What the chip sends is what the log may have put on the air. -/
theorem exchanges_send (hd : Ready d) {es : List Effect}
    (hagrees : ∀ x ∈ b.exchanges d es, x.agrees = true) :
    MaySend es (sentPackets (b.exchanges d es)) := by
  refine Yields.of_filterMap (fun e he ↦ ?_) (fun e op pkts he hsend ↦ ?_)
    (run_honest hd hagrees []).1
  · cases e with
    | radio op => cases he
    | _ => rfl
  · cases e with
    | radio op' =>
        cases he
        exact hsend
    | _ => cases he

/-- What the log has read is what the chip gave. -/
theorem exchanges_read (hd : Ready d) {es : List Effect}
    (hagrees : ∀ x ∈ b.exchanges d es, x.agrees = true) :
    (b.exchanges d es).filterMap Exchange.read? = (heardPackets es).map fun p ↦ p.1.bytes := by
  refine (run_honest hd hagrees []).2.trans ?_
  rw [heardPackets, radioOps, List.map_filterMap, List.filterMap_filterMap]
  refine List.filterMap_congr fun e _ ↦ ?_
  cases e with
  | radio op => rfl
  | _ => rfl

end

/-- Whatever the worker is called to do and whatever the chip answers, the chip is
told to send bursts of queued frames and nothing else, the confirmed ones whole; and
what is handed up has been taken from the chip, all of it where every packet has a
burst header. -/
theorem worker_over_driver (b : Board) {d : LR2021} (hd : Ready d) (w : RadioWorker)
    (calls : List Call)
    (hagrees : ∀ x ∈ b.exchanges d ((run workerStep w calls).2.map Prod.snd), x.agrees = true) :
    let es := (run workerStep w calls).2.map Prod.snd
    let xs := b.exchanges d es
    (∃ as : List Airing, sentPackets xs = as.flatMap Airing.packets ∧
      (as.map Airing.frame ++ (run workerStep w calls).1.txQ).Sublist
        (w.txQ ++ calls.flatMap Call.offered) ∧
      (confirmed es).Sublist ((as.filter Airing.whole).map Airing.frame)) ∧
    ((handedUp es).map fun p ↦ p.1.bytes).Sublist (xs.filterMap Exchange.read?) ∧
    ((∀ pkt ∈ xs.filterMap Exchange.read?, (decodeHeader pkt).isSome = true) →
      ((handedUp es).map fun p ↦ p.1.bytes) = xs.filterMap Exchange.read?) := by
  intro es xs
  have hread : xs.filterMap Exchange.read? = (heardPackets es).map fun p ↦ p.1.bytes :=
    exchanges_read hd hagrees
  obtain ⟨hsome, hall⟩ := run_faithful w calls
  obtain ⟨as, hsent, hframes, hconfirmed, -⟩ := run_airs w calls _ (exchanges_send hd hagrees)
  refine ⟨⟨as, hsent, hframes, hconfirmed⟩, ?_, fun hburst ↦ ?_⟩
  · rw [hread]
    exact hsome.map _
  · rw [hread] at hburst ⊢
    rw [hall fun p hp ↦ hburst _ (List.mem_map_of_mem hp)]

/-- A board with a chip in FLRC mode that answers some transfers as a table says. -/
def answering (table : List (ℕ × List UInt8)) : Board where
  miso k i := ((table.lookup k).getD []).getD i packetTypeFLRC
  toHz := id
  isLow hz := hz < 1600000000
  boot _ := pure true
  boot_off _ := .pure true

/-- The answers that hand a packet to the driver, from transfer `k` on. -/
def giving (k : ℕ) (pkt : Packet) : List (ℕ × List UInt8) :=
  [(k + 1, [5, 5, 0, 4, 0, 0]), (k + 3, [5, 5, 1, 255]), (k + 5, [5, 5, 0, 0, 0, 0, 0])] ++
    (List.range 4).map fun i ↦ (k + 6 + i, 5 :: 5 :: (pkt.bytes.drop (128 * i)).take 128)

/-- A packet is read, and one of three bytes is sent. -/
def exchangeOnce : List Call :=
  [.enqueueTx ⟨0, [1, 2, 3]⟩, .pollOnce { pollAt 4000 0 with
    rx := [{ RxStep.silent 0 with
      irq := irqRxDone, rxLevel := kPacketPayload, pkt := Serial.threeBytes }]
    burst := ⟨1, 0, fun _ _ ↦ ⟨0, 0, [⟨10, irqTxDone⟩]⟩⟩ }]

/-- A packet has come, no other one, and then `TX_DONE`. -/
def exchangingBoard : Board :=
  answering (giving 0 Serial.threeBytes ++ [(11, [5, 5, 0, 0]), (35, [5, 5, 0, 8, 0, 0])])

theorem worker_over_driver_exchange :
    let es := (run workerStep Serial.node.worker exchangeOnce).2.map Prod.snd
    let xs := exchangingBoard.exchanges {} es
    (∃ as : List Airing, sentPackets xs = as.flatMap Airing.packets ∧
      (as.map Airing.frame).Sublist [⟨0, [1, 2, 3]⟩] ∧
      [⟨0, [1, 2, 3]⟩].Sublist ((as.filter Airing.whole).map Airing.frame)) ∧
    xs.filterMap Exchange.read? = [Serial.threeBytes.bytes] ∧
    (handedUp es).map (fun p ↦ p.1.bytes) = [Serial.threeBytes.bytes] := by
  intro es xs
  have hagrees : ∀ x ∈ xs, x.agrees = true := by decide +kernel
  have hconfirmed : confirmed es = [⟨0, [1, 2, 3]⟩] := by decide +kernel
  have hread : xs.filterMap Exchange.read? = [Serial.threeBytes.bytes] := by decide +kernel
  have hburst : ∀ pkt ∈ xs.filterMap Exchange.read?, (decodeHeader pkt).isSome = true := by
    rw [hread]
    decide +kernel
  obtain ⟨⟨as, hsent, hframes, hwhole⟩, -, hall⟩ :=
    worker_over_driver exchangingBoard ⟨rfl, rfl⟩ Serial.node.worker exchangeOnce hagrees
  exact ⟨⟨as, hsent, (List.sublist_append_left _ _).trans hframes, hconfirmed ▸ hwhole⟩, hread,
    (hall hburst).trans hread⟩

namespace Serial

open RadioService.Serial

/-- `TX_DONE` behind each packet of two frames. -/
def sendingBoard : Board :=
  answering [(1, [5, 5, 0, 0, 0, 0]), (3, [5, 5, 0, 0]), (25, [5, 5, 0, 8, 0, 0]),
    (49, [5, 5, 0, 8, 0, 0]), (65, [5, 5, 0, 0, 0, 0]), (67, [5, 5, 0, 0]),
    (89, [5, 5, 0, 8, 0, 0])]

theorem sendingBoard_sends :
    let xs := sendingBoard.exchanges {} (effects (run serviceStep node sendTwo).2)
    (∀ x ∈ xs, x.agrees = true) ∧
      sentPackets xs = [wideFirst, wideLast, threeBytes].map Packet.bytes := by
  rw [sendTwo_effects]
  decide +kernel

/-- Of these packets the second is lost. -/
def hearingBoard : Board :=
  answering (giving 0 wideFirst ++ giving 10 threeBytes ++ [(21, [5, 5, 0, 0])])

theorem hearingBoard_gives :
    let xs := hearingBoard.exchanges {}
      (effects (run serviceStep node (hearing [wideFirst, threeBytes])).2)
    (∀ x ∈ xs, x.agrees = true) ∧
      xs.filterMap Exchange.read? = [wideFirst, threeBytes].map Packet.bytes := by
  decide +kernel

end Serial

end RadioService.Driver
