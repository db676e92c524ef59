import RadioService.Airings
import RadioService.Driver.LR2021
import RadioService.Hearing
import RadioService.Machine.Fifos

/-!
# What the chip sees of a run

The chip has a FIFO for the packet it is to send, which three commands clear,
fill and send.  Whatever the chip answers, a call of `startTransmit` makes it send
that packet and no other, or nothing and then reports an error.
-/

namespace RadioService.Driver

open Traced Machine Fifos

/-! ## The FIFOs -/

/-- What a transfer does to the FIFO of the sender. -/
def txFifoOp? (t : Transfer) : Option (FifoOp UInt8) :=
  let cmd := t.out.take 2
  if cmd = be16 cmdClearTxBuffer then some .clear
  else if cmd = be16 cmdWriteBuffer then some (.push (t.out.drop 2))
  else if cmd = be16 cmdSetTx then some .send
  else none

/-- The bytes that a transfer takes from the FIFO of the receiver. -/
def rxFifoRead? (t : Transfer) : Option (List UInt8) :=
  if t.out.take 2 = be16 cmdReadBuffer then some (t.inBytes.drop 2) else none

def popped (ts : List Transfer) : List UInt8 := (ts.filterMap rxFifoRead?).flatten

def fifoCommands : List (List UInt8) :=
  [be16 cmdClearTxBuffer, be16 cmdWriteBuffer, be16 cmdSetTx, be16 cmdReadBuffer]

/-- A transfer that neither FIFO takes notice of. -/
def Aside (t : Transfer) : Prop := txFifoOp? t = none ∧ rxFifoRead? t = none

/-- Between two calls the widths are those of a command and of its status. -/
structure Ready (d : LR2021) : Prop where
  cmd : d.cmdWidth = 16
  status : d.statusWidth = 16

/-- `m` leaves both FIFOs alone. -/
abbrev OffFifo {α : Type} (m : Spi α) : Prop := Confined Ready Aside m

section

variable (miso : ℕ → ℕ → UInt8) {d : LR2021}

/-! ## Transfers -/

theorem transferStream_write (cmd data : List UInt8) (d : LR2021) :
    ∃ state inBytes, (transferStream miso cmd true data data.length).run d =
      ⟨(state, []), { d with transfers := d.transfers + 1 }, [(d, ⟨cmd ++ data, inBytes⟩)]⟩ :=
  ⟨_, _, rfl⟩

theorem transferStream_read (cmd : List UInt8) (n : ℕ) {d : LR2021} {k : ℕ}
    (hlen : d.statusWidth / 8 = k) :
    ∃ state inBytes, inBytes.length = cmd.length + n + k ∧
      (transferStream miso cmd false [] n).run d =
        ⟨(state, (inBytes.drop (cmd.length + k)).take n),
          { d with transfers := d.transfers + 1 },
          [(d, ⟨cmd ++ List.replicate (n + k) 0, inBytes⟩)]⟩ := by
  subst hlen
  refine ⟨_, _, ?_, rfl⟩
  simp [Nat.add_assoc]

theorem aside_of_other {t : Transfer} (h : t.out.take 2 ∉ fifoCommands) : Aside t := by
  simp only [fifoCommands, List.mem_cons, List.not_mem_nil, or_false, not_or] at h
  obtain ⟨hclear, hwrite, hset, hread⟩ := h
  refine ⟨?_, if_neg hread⟩
  unfold txFifoOp?
  dsimp only
  rw [if_neg hclear, if_neg hwrite, if_neg hset]

theorem aside_of_command {cmd : UInt16} (h : be16 cmd ∉ fifoCommands)
    (data inBytes : List UInt8) : Aside ⟨be16 cmd ++ data, inBytes⟩ := aside_of_other h

theorem aside_of_nop (n : ℕ) (inBytes : List UInt8) : Aside ⟨List.replicate n 0, inBytes⟩ := by
  refine aside_of_other fun h ↦ ?_
  have hbyte : ∀ cmd ∈ fifoCommands, ∃ b ∈ cmd, b ≠ 0 := by decide
  obtain ⟨b, hb, hne⟩ := hbyte _ h
  exact hne (List.eq_of_mem_replicate (List.mem_of_mem_take hb))

/-! ## Commands -/

theorem checkStatus_spec (h : Ready d) :
    Ready ((checkStatus miso).run d).state ∧ ∀ t ∈ ((checkStatus miso).run d).events, Aside t := by
  obtain ⟨state, inBytes, -, hrun⟩ :=
    transferStream_read miso [] 6 (d := { d with statusWidth := 0 }) rfl
  unfold checkStatus
  simp only [run_bind, run_update, hrun, run_ite, run_pure]
  split
  · exact ⟨⟨h.cmd, rfl⟩, List.forall_mem_singleton.mpr (aside_of_nop 6 inBytes)⟩
  · exact ⟨⟨h.cmd, rfl⟩, List.forall_mem_singleton.mpr (aside_of_nop 6 inBytes)⟩

/-- A command is shifted out first, and nothing behind it matters to the FIFOs. -/
theorem writeCommand_spec (h : Ready d) (cmd : UInt16) (data : List UInt8) :
    Ready ((writeCommand miso cmd data).run d).state ∧
      ∃ inBytes behind, ((writeCommand miso cmd data).run d).events =
        ⟨be16 cmd ++ data, inBytes⟩ :: behind ∧ ∀ t ∈ behind, Aside t := by
  have hcmd : commandBytes d.cmdWidth cmd = be16 cmd := by
    rw [h.cmd]
    rfl
  obtain ⟨state, inBytes, hrun⟩ := transferStream_write miso (be16 cmd) data d
  have hnext : Ready { d with transfers := d.transfers + 1 } := ⟨h.cmd, h.status⟩
  obtain ⟨hready, hevents⟩ := checkStatus_spec miso hnext
  unfold writeCommand writeStream
  simp only [run_bind, run_read, hcmd, hrun, run_ite, run_pure]
  split
  · exact ⟨⟨h.cmd, h.status⟩, inBytes, [], rfl, List.forall_mem_nil _⟩
  · exact ⟨hready, inBytes, _, rfl, hevents⟩

theorem OffFifo.of_events {α : Type} {m : Spi α} (h : ∀ d, Ready d →
    Ready (m.run d).state ∧ ∀ t ∈ (m.run d).events, Aside t) : OffFifo m :=
  fun d hd ↦ ⟨(h d hd).1, fun p hp ↦ (h d hd).2 p.2 (List.mem_map_of_mem hp)⟩

theorem writeCommand_off {cmd : UInt16} (hcmd : be16 cmd ∉ fifoCommands) (data : List UInt8) :
    OffFifo (writeCommand miso cmd data) := by
  refine .of_events fun d hd ↦ ?_
  obtain ⟨hready, inBytes, behind, hevents, hbehind⟩ := writeCommand_spec miso hd cmd data
  rw [hevents]
  exact ⟨hready, List.forall_mem_cons.mpr ⟨aside_of_command hcmd data inBytes, hbehind⟩⟩

/-- A command without data has no status of its own. -/
theorem writeStream_bare (h : Ready d) (cmd : UInt16) :
    ∃ inBytes, (writeStream miso cmd [] false).run d =
      ⟨errNone, { d with transfers := d.transfers + 1 }, [(d, ⟨be16 cmd ++ [], inBytes⟩)]⟩ := by
  have hbytes : commandBytes d.cmdWidth cmd = be16 cmd := by
    rw [h.cmd]
    rfl
  have hrun : (writeStream miso cmd [] false).run d = ⟨errNone,
      { d with transfers := d.transfers + 1 }, [(d, ⟨commandBytes d.cmdWidth cmd ++ [],
        (List.range (commandBytes d.cmdWidth cmd ++ []).length).map (miso d.transfers)⟩)]⟩ := rfl
  exact ⟨_, hbytes ▸ hrun⟩

theorem readStream_bare (h : d.cmdWidth = 0) (cmd : UInt16) (n : ℕ) :
    ∃ answer inBytes, (readStream miso cmd n).run d =
      ⟨answer, { d with transfers := d.transfers + 1 },
        [(d, ⟨List.replicate (n + d.statusWidth / 8) 0, inBytes⟩)]⟩ := by
  have hbytes : commandBytes d.cmdWidth cmd = [] := by
    rw [h]
    rfl
  obtain ⟨state, inBytes, -, hread⟩ := transferStream_read miso [] n (d := d) rfl
  have hrun := congrArg (fun bytes ↦ (transferStream miso bytes false [] n).run d) hbytes
  exact ⟨_, inBytes, hrun.trans hread⟩

theorem readCommand_off {cmd : UInt16} (hcmd : be16 cmd ∉ fifoCommands) (len : ℕ) :
    OffFifo (readCommand miso cmd len) := by
  refine .of_events fun d hd ↦ ?_
  obtain ⟨inBytes, hwrite⟩ := writeStream_bare miso hd cmd
  obtain ⟨answer, inBytes', hread⟩ := readStream_bare miso
    (d := { d with transfers := d.transfers + 1, cmdWidth := 0 }) rfl cmdNop len
  have hne : ¬errNone ≠ errNone := not_not.mpr rfl
  unfold readCommand
  simp only [run_bind, hwrite, if_neg hne, run_update, hread, run_pure]
  refine ⟨⟨rfl, hd.status⟩, List.forall_mem_cons.mpr
    ⟨aside_of_command hcmd [] inBytes, List.forall_mem_singleton.mpr ?_⟩⟩
  exact aside_of_nop _ inBytes'

/-! ## Calls that keep off the FIFOs -/

theorem OffFifo.asserting {m g : Spi Int16} (hm : OffFifo m) (hg : OffFifo g) :
    OffFifo (asserting m g) := hm.bind fun st ↦ Confined.ite (.pure st) hg

theorem standby_off : OffFifo (standby miso) := writeCommand_off miso (by decide) _

theorem clearIrq_off (irq : UInt32) : OffFifo (clearIrq miso irq) :=
  writeCommand_off miso (by decide) _

theorem clearRxBuffer_off : OffFifo (clearRxBuffer miso) := writeCommand_off miso (by decide) _

theorem getPacketType_off : OffFifo (getPacketType miso) :=
  (readCommand_off miso (by decide) 1).bind fun _ ↦ .pure _

theorem setPacketParamsFLRC_off (preambleLen syncWordLen matchSyncWord hdrType : UInt8)
    (payloadLen : UInt16) (crcType : UInt8) : OffFifo
      (setPacketParamsFLRC miso preambleLen syncWordLen matchSyncWord hdrType payloadLen crcType) :=
  writeCommand_off miso (by decide) _

theorem setPacketParamsLoRa_off (preambleLen : UInt16) (hdrType payloadLen crcType : UInt8)
    (invertIQ : Bool) : OffFifo
      (setPacketParamsLoRa miso preambleLen hdrType payloadLen crcType invertIQ) :=
  writeCommand_off miso (by decide) _

theorem setLength_off (modem : UInt8) (len : ℕ) : OffFifo (setLength miso modem len) := by
  unfold setLength
  refine .ite ?_ (.ite (.pure _) (.ite ?_ (.ite (.pure _) (.pure _))))
  · refine .updating (fun d hd ↦ ⟨hd.cmd, hd.status⟩) (Confined.read.bind fun d ↦ ?_)
    exact ((setPacketParamsLoRa_off miso _ _ _ _ _).bind fun _ ↦ .pure ()).bind fun _ ↦ .pure _
  · refine .updating (fun d hd ↦ ⟨hd.cmd, hd.status⟩) (Confined.read.bind fun d ↦ ?_)
    exact setPacketParamsFLRC_off miso _ _ _ _ _ _

theorem finishTransmit_off : OffFifo (finishTransmit miso) :=
  ((clearIrq_off miso irqAll).bind fun _ ↦ .pure ()).bind fun _ ↦ standby_off miso

theorem setReceiveLength_off (modem : UInt8) : OffFifo (setReceiveLength miso modem) := by
  unfold setReceiveLength
  have hlora := fun d : LR2021 ↦ setPacketParamsLoRa_off miso d.preambleLengthLoRa d.headerType
    (UInt8.ofNat d.implicitLen) d.crcTypeLoRa d.invertIQEnabled
  refine Confined.read.bind fun d ↦ (hlora d).ite (.ite ?_ (.pure _))
  refine .updating (fun d hd ↦ ⟨hd.cmd, hd.status⟩) (Confined.read.bind fun d ↦ ?_)
  exact setPacketParamsFLRC_off miso _ _ _ _ _ _

theorem startReceive_off : OffFifo (startReceive miso) := by
  unfold startReceive
  refine (getPacketType_off miso).bind fun p ↦ .ite (.pure _) (.ite (.pure _) ?_)
  refine (clearIrq_off miso irqAll).asserting ((clearRxBuffer_off miso).asserting ?_)
  exact (setReceiveLength_off miso p.2).asserting (writeCommand_off miso (by decide) _)

theorem setFrequency_off (toHz : UInt32 → UInt32) (isLow : UInt32 → Bool) (hz : UInt32) :
    OffFifo (setFrequency miso toHz isLow hz) := by
  have hset : OffFifo (setRfFrequency miso (toHz hz)) := writeCommand_off miso (by decide) _
  have hcal : OffFifo (calibrateFrontEnd miso (isLow hz) (toHz hz)) :=
    writeCommand_off miso (by decide) _
  unfold setFrequency
  refine Confined.read.bind fun d ↦ .updating (fun d hd ↦ ⟨hd.cmd, hd.status⟩) (.ite hset ?_)
  exact hcal.asserting hset

theorem setOutputPower_off (power : Int8) : OffFifo (setOutputPower miso power) :=
  writeCommand_off miso (by decide) _

theorem getClearIrqStatus_off : OffFifo (getClearIrqStatus miso) :=
  (readCommand_off miso (by decide) 4).bind fun _ ↦ .pure _

theorem getRxFifoLevel_off : OffFifo (getRxFifoLevel miso) :=
  (readCommand_off miso (by decide) 2).bind fun _ ↦ .pure _

theorem getPacketStatusFLRC_off : OffFifo (getPacketStatusFLRC miso) :=
  (readCommand_off miso (by decide) 5).bind fun _ ↦ .pure _

/-! ## Sending -/

theorem OffFifo.obeys {α : Type} {m : Spi α} (hm : OffFifo m) (hd : Ready d) (q : List UInt8) :
    obey txFifoOp? q (m.run d).events = (q, []) := by
  refine obey_silent (fun t ht ↦ ?_) q
  obtain ⟨p, hp, rfl⟩ := List.mem_map.mp ht
  exact ((hm d hd).2 p hp).1

theorem writeCommand_obeys (hd : Ready d) {cmd : UInt16} {data : List UInt8}
    {op : FifoOp UInt8} (hop : ∀ inBytes, txFifoOp? ⟨be16 cmd ++ data, inBytes⟩ = some op)
    (q : List UInt8) :
    obey txFifoOp? q ((writeCommand miso cmd data).run d).events = fifoStep q op := by
  obtain ⟨-, inBytes, behind, hevents, hbehind⟩ := writeCommand_spec miso hd cmd data
  have hsilent : ∀ q', obey txFifoOp? q' behind = (q', []) := fun q' ↦
    obey_silent (fun t ht ↦ (hbehind t ht).1) q'
  rw [hevents, obey_cons, obey_one (hop inBytes), hsilent, List.append_nil]

theorem txFifoOp?_clear (inBytes : List UInt8) :
    txFifoOp? ⟨be16 cmdClearTxBuffer ++ [], inBytes⟩ = some .clear := rfl

theorem txFifoOp?_write (data inBytes : List UInt8) :
    txFifoOp? ⟨be16 cmdWriteBuffer ++ data, inBytes⟩ = some (.push data) := rfl

theorem txFifoOp?_send (timeout : UInt32) (inBytes : List UInt8) :
    txFifoOp? ⟨be16 cmdSetTx ++ be24 timeout, inBytes⟩ = some .send := rfl

theorem writeCommand_ready (hd : Ready d) (cmd : UInt16) (data : List UInt8) :
    Ready ((writeCommand miso cmd data).run d).state := (writeCommand_spec miso hd cmd data).1

theorem asserting_run (m g : Spi Int16) (d : LR2021) :
    (asserting m g).run d = if (m.run d).val = errNone then
      (g.run (m.run d).state).prepend (m.run d).log else m.run d := by
  unfold asserting
  rw [run_bind]
  by_cases hst : (m.run d).val = errNone
  · rw [if_pos hst, if_neg (not_not.mpr hst)]
  · rw [if_neg hst, if_pos hst]
    exact Outcome.ext rfl rfl (List.append_nil _)

/-- Behind a call on a FIFO that holds `q`: nothing is sent, and without an error the
FIFO holds `data` as well. -/
structure Loads (data q : List UInt8) (r : Outcome LR2021 Transfer Int16) : Prop where
  ready : Ready r.state
  unsent : (obey txFifoOp? q r.events).2 = []
  loaded : r.val = errNone → (obey txFifoOp? q r.events).1 = q ++ data

/-- Behind a call: `data` is sent and nothing else, or nothing and there was an error. -/
structure Sends (data q : List UInt8) (r : Outcome LR2021 Transfer Int16) : Prop where
  ready : Ready r.state
  sent : (obey txFifoOp? q r.events).2 = [data] ∨
    (obey txFifoOp? q r.events).2 = [] ∧ r.val ≠ errNone

theorem obey_prepend {α : Type} (q : List UInt8) (r : Outcome LR2021 Transfer α)
    (r' : Outcome LR2021 Transfer Int16) :
    obey txFifoOp? q (r'.prepend r.log).events =
      ((obey txFifoOp? (obey txFifoOp? q r.events).1 r'.events).1,
        (obey txFifoOp? q r.events).2 ++
          (obey txFifoOp? (obey txFifoOp? q r.events).1 r'.events).2) := by
  rw [Outcome.events_prepend]
  exact obey_append q r.events r'.events

/-- A status that is asserted: an error ends the call with nothing sent so far. -/
theorem Sends.asserting {m g : Spi Int16} {data q : List UInt8} (hm : Ready (m.run d).state)
    (hunsent : (obey txFifoOp? q (m.run d).events).2 = [])
    (hg : (m.run d).val = errNone →
      Sends data (obey txFifoOp? q (m.run d).events).1 (g.run (m.run d).state)) :
    Sends data q ((asserting m g).run d) := by
  rw [asserting_run]
  by_cases hst : (m.run d).val = errNone
  · obtain ⟨hready, hsent⟩ := hg hst
    rw [if_pos hst]
    refine ⟨hready, ?_⟩
    rw [obey_prepend, hunsent]
    exact hsent
  · rw [if_neg hst]
    exact ⟨hm, .inr ⟨hunsent, hst⟩⟩

/-- The chunks of a packet, one behind the other. -/
theorem writeChunks_loads (data : List UInt8) (n : ℕ) : ∀ {d : LR2021} (_ : Ready d) (off : ℕ)
    (_ : data.length - off ≤ n) (q : List UInt8),
    Loads (data.drop off) q ((writeChunks miso data off n).run d) := by
  induction n with
  | zero =>
      intro d hd off hoff q
      rw [List.drop_eq_nil_of_le (by omega)]
      exact ⟨hd, rfl, fun _ ↦ (List.append_nil q).symm⟩
  | succ n ih =>
      intro d hd off hoff q
      by_cases hmore : off < data.length
      case neg =>
        have hrun : writeChunks miso data off (n + 1) = pure errNone := if_neg hmore
        rw [hrun, List.drop_eq_nil_of_le (by omega)]
        exact ⟨hd, rfl, fun _ ↦ (List.append_nil q).symm⟩
      set chunk := if data.length - off > 128 then 128 else data.length - off with hchunk
      have hpos : 0 < chunk ∧ chunk ≤ data.length - off := by
        rw [hchunk]
        split <;> omega
      let w := (writeCommand miso cmdWriteBuffer ((data.drop off).take chunk)).run d
      have hready : Ready w.state := writeCommand_ready miso hd _ _
      have hstep : obey txFifoOp? q w.events = (q ++ (data.drop off).take chunk, []) :=
        writeCommand_obeys miso hd (txFifoOp?_write _) q
      have hturn : writeChunks miso data off (n + 1) = Driver.asserting
          (writeCommand miso cmdWriteBuffer ((data.drop off).take chunk))
          (writeChunks miso data (off + chunk) n) := if_pos hmore
      rw [hturn, asserting_run]
      by_cases hst : w.val = errNone
      case neg =>
        rw [if_neg hst]
        exact ⟨hready, congrArg Prod.snd hstep, fun h ↦ absurd h hst⟩
      case pos =>
        obtain ⟨hready', hunsent, hloaded⟩ := ih hready (off + chunk) (by omega)
          (q ++ (data.drop off).take chunk)
        rw [if_pos hst]
        refine ⟨hready', ?_, fun hval ↦ ?_⟩
        · rw [obey_prepend, hstep]
          exact hunsent
        · rw [obey_prepend, hstep]
          refine (hloaded hval).trans ?_
          rw [List.append_assoc, ← List.drop_drop, List.take_append_drop]

theorem writeBuffer8_loads (hd : Ready d) (data q : List UInt8) :
    Loads data q ((writeBuffer8 miso data).run d) := by
  unfold writeBuffer8
  by_cases hlong : data.length > spiMaxReadWriteLen
  · rw [if_pos hlong]
    have hne : errSpiCmdInvalid ≠ errNone := by decide
    exact ⟨hd, rfl, fun h ↦ absurd h hne⟩
  · rw [if_neg hlong]
    exact writeChunks_loads miso data data.length hd 0 le_rfl q

theorem loadAndSend_sends (hd : Ready d) (data q : List UInt8) :
    Sends data q ((loadAndSend miso data).run d) := by
  have hirq := clearIrq_off miso irqAll
  refine Sends.asserting (hirq d hd).1 (congrArg Prod.snd (hirq.obeys hd q)) fun _ ↦ ?_
  have hd' := (hirq d hd).1
  have hclear : ∀ q', obey txFifoOp? q' ((clearTxBuffer miso).run _).events = ([], []) := fun q' ↦
    writeCommand_obeys miso hd' txFifoOp?_clear q'
  refine Sends.asserting (writeCommand_ready miso hd' _ _) (congrArg Prod.snd (hclear _)) fun _ ↦ ?_
  have hd'' : Ready ((clearTxBuffer miso).run _).state := writeCommand_ready miso hd' _ _
  rw [hclear]
  obtain ⟨hready, hunsent, hloaded⟩ := writeBuffer8_loads miso hd'' data []
  refine Sends.asserting hready hunsent fun hval ↦ ?_
  have hfull : (obey txFifoOp? [] ((writeBuffer8 miso data).run _).events).1 = data := hloaded hval
  rw [hfull]
  refine ⟨writeCommand_ready miso hready _ _, .inl ?_⟩
  exact congrArg Prod.snd (writeCommand_obeys miso hready (txFifoOp?_send txTimeoutNone) data)

/-- A call that keeps off the FIFOs and then one that sends. -/
theorem Sends.behind {α : Type} {m : Spi α} {g : α → Spi Int16} {data q : List UInt8}
    (hm : OffFifo m) (hd : Ready d)
    (hg : Sends data q ((g (m.run d).val).run (m.run d).state)) :
    Sends data q ((m >>= g).run d) := by
  rw [run_bind]
  refine ⟨hg.ready, ?_⟩
  rw [obey_prepend, hm.obeys hd q]
  exact hg.sent

/-- Nothing is sent by a call that ends with an error and no transfer. -/
theorem Sends.failed {st : Int16} (hd : Ready d) (hst : st ≠ errNone) (data q : List UInt8) :
    Sends data q ((pure st : Spi Int16).run d) := ⟨hd, .inr ⟨rfl, hst⟩⟩

/-- Whatever the chip answers, a packet is sent whole, or nothing and an error is
reported. -/
theorem startTransmit_sends (hd : Ready d) (data q : List UInt8) :
    Sends data q ((startTransmit miso data).run d) := by
  have htype := getPacketType_off miso
  unfold startTransmit
  refine Sends.behind .read hd ?_
  by_cases hlong :
      data.length > maxPacketLength ∨ d.addrComp ≠ 0 ∧ data.length > maxPacketLength - 1
  · rw [run_read, if_pos hlong]
    exact .failed hd (by decide) data q
  rw [run_read, if_neg hlong]
  refine Sends.behind htype hd ?_
  have hd' := (htype d hd).1
  obtain ⟨st, modem⟩ := ((getPacketType miso).run d).val
  by_cases hst : st ≠ errNone
  · dsimp only
    rw [if_pos hst]
    exact .failed hd' hst data q
  dsimp only
  rw [if_neg hst]
  have hlen := setLength_off miso modem data.length
  refine Sends.asserting (hlen _ hd').1 (congrArg Prod.snd (hlen.obeys hd' q)) fun _ ↦ ?_
  rw [hlen.obeys hd' q]
  exact loadAndSend_sends miso (hlen _ hd').1 data q

/-! ## Receiving -/

/-- Behind a read of `n` bytes: nothing is sent, the bytes returned are those taken
from the chip, and without an error there are `n` of them. -/
structure Pops (n : ℕ) (r : Outcome LR2021 Transfer (Int16 × List UInt8)) : Prop where
  ready : Ready r.state
  unsent : ∀ t ∈ r.events, txFifoOp? t = none
  popped : popped r.events = r.val.2
  length : r.val.1 = errNone → r.val.2.length = n

theorem popped_append (ts ts' : List Transfer) : popped (ts ++ ts') = popped ts ++ popped ts' := by
  rw [popped, List.filterMap_append, List.flatten_append]
  rfl

theorem popChunk_pops (hd : Ready d) (n : ℕ) : Pops n ((popChunk miso n).run d) := by
  obtain ⟨state, inBytes, hlen, hrun⟩ :=
    transferStream_read miso (be16 cmdReadBuffer) n (d := { d with statusWidth := 0 })
      (Nat.zero_div 8)
  have hcmd : (be16 cmdReadBuffer).length = 2 := rfl
  have hsize : (inBytes.drop 2).length = n := by
    rw [List.length_drop, hlen]
    omega
  have htake : (inBytes.drop ((be16 cmdReadBuffer).length + 0)).take n = inBytes.drop 2 :=
    List.take_of_length_le hsize.le
  rw [htake] at hrun
  unfold popChunk
  simp only [run_bind, run_update, hrun, run_pure]
  exact ⟨⟨hd.cmd, rfl⟩, List.forall_mem_singleton.mpr rfl, List.append_nil _, fun _ ↦ hsize⟩

/-- A read and, without an error, another behind it. -/
theorem Pops.behind {m g : Spi (Int16 × List UInt8)} {n k : ℕ} (hm : Pops n (m.run d))
    (hg : Pops k (g.run (m.run d).state)) :
    Pops (n + k) ((do
      let answer ← m
      if answer.1 ≠ errNone then
        return answer
      else
        let rest ← g
        return (rest.1, answer.2 ++ rest.2)).run d) := by
  by_cases hst : (m.run d).val.1 ≠ errNone
  · rw [run_bind, if_pos hst, run_pure]
    refine ⟨hm.ready, ?_, ?_, fun h ↦ absurd h hst⟩
    · rw [Outcome.events_prepend, Outcome.events_mk, List.map_nil, List.append_nil]
      exact hm.unsent
    · rw [Outcome.events_prepend, Outcome.events_mk, List.map_nil, List.append_nil]
      exact hm.popped
  · rw [run_bind, if_neg hst, run_bind, run_pure]
    refine ⟨hg.ready, ?_, ?_, fun h ↦ ?_⟩
    · rw [Outcome.events_prepend, Outcome.events_prepend, Outcome.events_mk, List.map_nil,
        List.append_nil]
      exact List.forall_mem_append.mpr ⟨hm.unsent, hg.unsent⟩
    · rw [Outcome.events_prepend, Outcome.events_prepend, Outcome.events_mk, List.map_nil,
        List.append_nil, popped_append]
      exact congrArg₂ (· ++ ·) hm.popped hg.popped
    · exact List.length_append.trans
        (congrArg₂ (· + ·) (hm.length (not_not.mp hst)) (hg.length h))

theorem Pops.none (hd : Ready d) : Pops 0 ((pure (errNone, []) : Spi _).run d) :=
  ⟨hd, List.forall_mem_nil _, rfl, fun _ ↦ rfl⟩

theorem readChunks_pops (len n : ℕ) : ∀ {d : LR2021} (_ : Ready d) (off : ℕ) (_ : len - off ≤ n),
    Pops (len - off) ((readChunks miso len off n).run d) := by
  induction n with
  | zero =>
      intro d hd off hoff
      rw [Nat.le_zero.mp hoff]
      exact .none hd
  | succ n ih =>
      intro d hd off hoff
      by_cases hmore : off < len
      case neg =>
        have hrun : readChunks miso len off (n + 1) = pure (errNone, []) := if_neg hmore
        rw [hrun, Nat.sub_eq_zero_of_le (not_lt.mp hmore)]
        exact .none hd
      set chunk := if len - off > 128 then 128 else len - off with hchunk
      have hpos : 0 < chunk ∧ chunk ≤ len - off := by
        rw [hchunk]
        split <;> omega
      have hturn : readChunks miso len off (n + 1) = (do
          let answer ← popChunk miso chunk
          if answer.1 ≠ errNone then
            return answer
          else
            let rest ← readChunks miso len (off + chunk) n
            return (rest.1, answer.2 ++ rest.2)) := if_pos hmore
      have hlen : chunk + (len - (off + chunk)) = len - off := by omega
      have hhead := popChunk_pops miso hd chunk
      have hpops := hhead.behind (ih hhead.ready (off + chunk) (by omega))
      rwa [← hturn, hlen] at hpops

theorem readData_pops (hd : Ready d) {len : ℕ} (hlen : len ≤ spiMaxReadWriteLen) :
    Pops len ((readData miso len).run d) := by
  unfold readData readBuffer8
  rw [if_neg (not_lt.mpr hlen)]
  exact readChunks_pops miso len len hd 0 le_rfl

end

end RadioService.Driver
