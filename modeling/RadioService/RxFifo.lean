import RadioService.Hearing
import RadioService.Machine.Monitors

/-!
# The receive FIFO of the chip

Packets come into the FIFO of the chip byte by byte while the worker goes on with its
calls.  A read takes 511 bytes, whether they are there or not, and a read that fails
may have taken any number of them.  The worker asks for the level in front of every
read and starts the receiver anew behind one that has failed, so that reads find
whole packets.
-/

namespace RadioService

open Burst Machine

open Traced hiding run

/-! ## The discipline of the calls -/

def Effect.op? : Effect → Option RadioOp
  | .radio op => some op
  | _ => none

def radioOps (es : List Effect) : List RadioOp := es.filterMap Effect.op?

def RadioOp.reads : RadioOp → Bool
  | .readData _ _ _ => true
  | _ => false

/-- What the calls so far have made sure of. -/
inductive RxPhase where
  | free
  | level (n : ℕ)
  | status (n : ℕ)
  | failed
deriving DecidableEq

namespace RxPhase

/-- The status of a packet is asked for between the level and the read. -/
def next : RxPhase → RadioOp → RxPhase
  | _, .getRxFifoLevel lvl => .level lvl.toNat
  | .level n, .getPacketStatusFLRC _ => .status n
  | _, .readData _ _ st => if st = errNone then .free else .failed
  | _, _ => .free

/-- Behind a failed read nothing is done but to start the receiver, and a read is
done behind a level of a whole packet. -/
def Allows (phase : RxPhase) (op : RadioOp) : Prop :=
  (phase = .failed → op = .startReceive) ∧
    (op.reads = true → ∃ n, kPacketPayload.toNat ≤ n ∧ phase = .status n)

end RxPhase

def rxMonitor : Monitor RxPhase RadioOp where
  next := RxPhase.next
  Allows := RxPhase.Allows

/-- The monitor beside the worker. -/
abbrev rxGuard : Monitor RxPhase Effect := rxMonitor.on Effect.op?

def Effect.readless : Effect → Bool
  | .radio (.readData _ _ _) => false
  | _ => true

/-- Whatever is no read is allowed, unless a read has failed. -/
theorem rxGuard_of_readless (e : Effect) (he : e.readless = true) (phase : RxPhase)
    (hphase : phase ≠ .failed) :
    rxGuard.Allows phase e ∧ rxGuard.next phase e ≠ .failed := by
  refine rxMonitor.on_keeps (I := (· ≠ .failed)) (fun op hop phase hphase ↦ ?_) hphase
  have hreads : op.reads = false := by
    cases e <;> cases hop
    cases op <;> first | rfl | cases he
  have hnext : phase.next op ≠ .failed := by
    cases op with
    | readData pkt rssi st => cases hreads
    | _ => cases phase <;> nofun
  refine ⟨⟨fun hfailed ↦ absurd hfailed hphase, fun hread ↦ ?_⟩, hnext⟩
  rw [hreads] at hread
  cases hread

/-- `m` makes its calls as it should, from any state. -/
abbrev Tidy {α : Type} (m : Work α) : Prop :=
  rxGuard.Guards (fun _ phase ↦ phase ≠ .failed) m fun _ _ phase ↦ phase ≠ .failed

/-- `m` reads nothing from the FIFO. -/
abbrev Readless {α : Type} (m : Work α) : Prop :=
  Frame (fun _ : RadioWorker ↦ ()) (fun _ e ↦ e.readless = true) m

theorem Readless.tidy {α : Type} {m : Work α} (hm : Readless m) : Tidy m :=
  (Monitor.Guards.of_frame hm rxGuard_of_readless fun _ ↦ True).conseq (fun _ _ h ↦ ⟨trivial, h⟩)
    fun _ _ _ h ↦ h.2

theorem Deaf.tidy {α : Type} {m : Work α} (hm : Deaf m) : Tidy m := by
  refine Readless.tidy (Frame.mono (fun _ e he ↦ ?_) hm)
  unfold Effect.readless
  split <;> first | cases he | rfl

/-! ## The receive loop -/

/-- What the receive loop does but to read. -/
def Effect.asking : Effect → Bool
  | .radio op => op.asks || op == .startReceive
  | .onRxPacket _ _ => true
  | _ => false

theorem readless_of_asking {e : Effect} (h : e.asking = true) : e.readless = true := by
  unfold Effect.readless
  split
  · cases h
  · rfl

/-- The receiver is started when it is asked to be. -/
def Listens (w : RadioWorker) : Prop := w.radioOk = true ∧ w.cfg.role ≠ 1

/-- A part of the receive loop makes its calls as it should. -/
abbrev Careful {α : Type} (m : Work α) : Prop :=
  rxGuard.Guards (fun w phase ↦ Listens w ∧ phase ≠ .failed) m
    fun _ w phase ↦ Listens w ∧ phase ≠ .failed

namespace Careful

variable {α β : Type}

theorem of_asks {m : Work α} (hm : Moves Effect.asking m) : Careful m :=
  Monitor.Guards.of_frame hm (fun e he ↦ rxGuard_of_readless e (readless_of_asking he))
    fun t ↦ t.1.radioOk = true ∧ t.1.cfg.role ≠ 1

theorem pure (a : α) : Careful (Pure.pure a) := of_asks (Frame.pure a)

theorem ask {op : RadioOp} (hop : (Effect.radio op).asking = true) : Careful (radioCall op) :=
  of_asks (Frame.issue fun _ ↦ hop)

theorem arm : Careful armReceive := of_asks (Moves.armReceive rfl)

theorem count {u : RadioWorker → RadioWorker} (hu : Counts u) : Careful (update u : Work Unit) := by
  refine of_asks (Frame.update fun w ↦ ?_)
  obtain ⟨st, hw⟩ := hu w
  rw [hw]

theorem deliver (ps : List (Packet × Int16)) : Careful (deliver ps) := by
  refine of_asks (Frame.issueAll fun e he _ ↦ ?_)
  obtain ⟨p, -, rfl⟩ := List.mem_map.mp he
  rfl

theorem ite {c : Prop} [Decidable c] {m n : Work α} (hm : Careful m) (hn : Careful n) :
    Careful (if c then m else n) := Monitor.Guards.ite (fun _ ↦ hm) fun _ ↦ hn

theorem armed (a : α) : Careful (armReceive >>= fun _ ↦ (Pure.pure a : Work α)) :=
  arm.bind fun _ ↦ pure a

theorem asking {op : RadioOp} {m : Work α} (hop : (Effect.radio op).asking = true)
    (hm : Careful m) : Careful (radioCall op >>= fun _ ↦ m) := (ask hop).bind fun _ ↦ hm

theorem counting {u : RadioWorker → RadioWorker} {m : Work α} (hu : Counts u) (hm : Careful m) :
    Careful (update u >>= fun _ ↦ m) := (count hu).bind fun _ ↦ hm

theorem rxSense (i : RxStep) (l : RxLocals) : Careful (rxSense i l) :=
  asking rfl <| ite (asking rfl (ite (pure _) (ite (pure _) (pure _)))) (pure _)

theorem rxIdle (i : RxStep) (l : RxLocals) : Careful (rxIdle i l) := by
  refine ite (counting (fun w ↦ ?_) (armed _)) (pure _)
  split
  · exact ⟨_, rfl⟩
  · split <;> exact ⟨_, rfl⟩

theorem rxTail (i : RxStep) (l : RxLocals) : Careful (rxTail i l) := by
  have hleave : Careful (do
      RadioService.deliver l.queue
      return RxNext.leave) := (deliver _).bind fun _ ↦ pure _
  exact ite (pure _) <| ite
    (asking rfl (arm.bind fun _ ↦ counting (fun _ ↦ ⟨_, rfl⟩) hleave)) hleave

theorem rxPacket (i : RxStep) (p : Packet × Int16) (l : RxLocals) : Careful (rxPacket i p l) := by
  unfold RadioService.rxPacket
  cases decodeHeader p.1.bytes with
  | none => exact asking rfl (arm.bind fun _ ↦ counting (fun _ ↦ ⟨_, rfl⟩) (pure _))
  | some hdr =>
      refine ite (counting (fun _ ↦ ⟨_, rfl⟩) (pure _)) ?_
      refine counting (fun _ ↦ ⟨_, rfl⟩) (counting (fun _ ↦ ⟨_, rfl⟩) ?_)
      exact (deliver _).bind fun _ ↦ asking rfl <| ite (pure _) <| ite (pure _) <|
        asking rfl (rxTail _ _)

/-- A read behind its level and its status; one that fails is followed by the start
of the receiver. -/
theorem read (i : RxStep) (hlvl : kPacketPayload ≤ i.rxLevel) (l : RxLocals) :
    rxGuard.Guards (fun w phase ↦ Listens w ∧ phase = .level i.rxLevel.toNat) (do
      radioCall (.getPacketStatusFLRC (rssiOf i.rssiAvg i.rssiLow))
      radioCall (.readData i.pkt (rssiOf i.rssiAvg i.rssiLow) i.readSt)
      if i.readSt = errNone then
        update (countRead i.pkt (rssiOf i.rssiAvg i.rssiLow))
        return (some (i.pkt, rssiOf i.rssiAvg i.rssiLow), l)
      else
        armReceive
        return (none, { l with inBurst := false }) : Work (Option (Packet × Int16) × RxLocals))
      fun _ w phase ↦ Listens w ∧ phase ≠ .failed := by
  refine Monitor.Guards.issue (S := fun w phase ↦ Listens w ∧ phase = .status i.rxLevel.toNat)
    ?_ ?_
  · rintro w phase ⟨hw, rfl⟩
    refine ⟨fun op hop ↦ ?_, hw, rfl⟩
    cases hop
    exact ⟨by rintro ⟨⟩, by rintro ⟨⟩⟩
  refine Monitor.Guards.issue (S := fun w phase ↦ Listens w ∧
    phase = if i.readSt = errNone then .free else .failed) ?_ ?_
  · rintro w phase ⟨hw, rfl⟩
    refine ⟨fun op hop ↦ ?_, hw, rfl⟩
    cases hop
    exact ⟨by rintro ⟨⟩, fun _ ↦ ⟨_, hlvl, rfl⟩⟩
  refine Monitor.Guards.ite (fun hst ↦ ?_) fun hst ↦ ?_
  · refine Monitor.Guards.update (S := fun w phase ↦ Listens w ∧ phase ≠ .failed) ?_ (pure _)
    rintro w phase ⟨hw, rfl⟩
    rw [if_pos hst]
    exact ⟨hw, by rintro ⟨⟩⟩
  · rintro w phase ⟨⟨hok, hrole⟩, rfl⟩
    rw [if_neg hst]
    have hevents : ((armReceive >>= fun _ ↦ Pure.pure (none, { l with inBurst := false }) :
        Work (Option (Packet × Int16) × RxLocals)).run w).events = [.radio .startReceive] := by
      simp [armReceive, startReceive, radioCall, hok, hrole]
    have hsettings : KeepsSettings (armReceive >>= fun _ ↦
        (Pure.pure (none, { l with inBurst := false }) :
          Work (Option (Packet × Int16) × RxLocals))) :=
      Frame.bind KeepsSettings.armReceive fun _ ↦ Frame.pure _
    rw [hevents]
    refine ⟨⟨fun op hop ↦ ?_, trivial⟩, ?_, by rintro ⟨⟩⟩
    · cases hop
      exact ⟨fun _ ↦ rfl, by rintro ⟨⟩⟩
    · unfold Listens
      rw [(hsettings w).1]
      exact ⟨hok, hrole⟩

theorem rxRead (i : RxStep) (l : RxLocals) : Careful (rxRead i l) := by
  unfold RadioService.rxRead
  refine Monitor.Guards.issue (S := fun w phase ↦ Listens w ∧ phase = .level i.rxLevel.toNat)
    ?_ ?_
  · rintro w phase ⟨hw, hphase⟩
    refine ⟨fun op hop ↦ ?_, hw, by cases phase <;> rfl⟩
    cases hop
    exact ⟨fun hfailed ↦ absurd hfailed hphase, nofun⟩
  have hcareful : ∀ {m : Work (Option (Packet × Int16) × RxLocals)}, Careful m →
      rxGuard.Guards (fun w phase ↦ Listens w ∧ phase = .level i.rxLevel.toNat) m
        fun _ w phase ↦ Listens w ∧ phase ≠ .failed :=
    fun hm ↦ hm.conseq (fun w phase h ↦ ⟨h.1, h.2 ▸ nofun⟩) fun _ _ _ h ↦ h
  refine Monitor.Guards.ite (fun _ ↦ hcareful ?_) fun _ ↦
    Monitor.Guards.ite (fun _ ↦ hcareful ?_) fun hshort ↦ read i (UInt16.not_lt.mp hshort) l
  · refine counting (fun w ↦ ?_) (asking rfl (armed _))
    split <;> exact ⟨_, rfl⟩
  · exact ite (asking rfl (armed _)) (pure _)

theorem rxIter (i : RxStep) (l : RxLocals) : Careful (rxIter i l) := by
  refine (rxSense i l).bind fun ⟨hasRx, l⟩ ↦ ?_
  refine ite ((rxRead i l).bind ?_) ((rxIdle i l).bind ?_)
  all_goals
    rintro ⟨got, l⟩
    cases got with
    | some p => exact rxPacket i p _
    | none => exact rxTail i l

theorem rxLoop (is : List RxStep) (l : RxLocals) : Careful (rxLoop is l) := by
  induction is generalizing l with
  | nil => exact (rxIter _ l).bind fun _ ↦ pure ()
  | cons i is ih =>
      refine (rxIter i l).bind fun next ↦ ?_
      cases next with
      | again l => exact ih l
      | leave => exact pure ()

end Careful

/-! ## Runs of the worker -/

namespace Tidy

theorem afterScan (io : PollInput) : Tidy (afterScan io) := by
  have hgated : ∀ w : RadioWorker, Deaf (do
      if !w.scanActive then
        serviceTxQueue io.burst : Work Unit) :=
    fun w ↦ (Deaf.serviceTxQueue io.burst).ite (Frame.pure ())
  refine Monitor.Guards.read fun w ↦ Monitor.Guards.ite (fun _ ↦ ?_) fun hok ↦
    Monitor.Guards.ite (fun _ ↦ ?_) fun hrole ↦ ?_
  · exact Monitor.Guards.pure fun _ _ h ↦ h.2
  · exact (hgated w).tidy.conseq (fun _ _ h ↦ h.2) fun _ _ _ h ↦ h
  · refine Monitor.Guards.bind (Q := fun _ _ phase ↦ phase ≠ .failed) ?_ fun _ ↦
      Deaf.tidy (Frame.read.bind hgated)
    refine (Careful.rxLoop io.rx {}).conseq ?_ fun _ _ _ h ↦ h.2
    rintro w' phase ⟨rfl, hphase⟩
    exact ⟨⟨by simpa using hok, by simpa using hrole⟩, hphase⟩

theorem pollOnce (io : PollInput) : Tidy (pollOnce io) := by
  rw [pollOnce_eq]
  refine (Deaf.thermalTick _ _).tidy.bind fun _ ↦ Monitor.Guards.read fun w ↦ ?_
  refine Monitor.Guards.conseq (P := fun _ phase ↦ phase ≠ .failed) ?_ (fun _ _ h ↦ h.2)
    fun _ _ _ h ↦ h
  refine Monitor.Guards.ite (fun _ ↦ Monitor.Guards.pure fun _ _ h ↦ h) fun _ ↦
    Monitor.Guards.ite (fun _ ↦ ?_) fun _ ↦ afterScan io
  exact (Scans.scanTick _ _).quiet.calm.deaf.tidy.bind fun _ ↦ afterScan io

theorem exec (c : Call) : Tidy c.exec := by
  cases c with
  | applyConfig cfg io =>
      have hquiet : Quiet (discard (applyConfig cfg io)) :=
        Frame.discard (Quiet.rules.applyConfig cfg io)
      exact hquiet.calm.deaf.tidy
  | startScan p now freqSt => exact (Scans.startScan p now freqSt).quiet.calm.deaf.tidy
  | pollOnce io => exact pollOnce io
  | enqueueTx frame =>
      have hdeaf : Deaf (discard (enqueueTx frame)) :=
        (enqueueTx_frame (fun _ _ _ ↦ rfl) frame).discard
      exact hdeaf.tidy

end Tidy

theorem run_passes_rx (w : RadioWorker) (calls : List Call) {phase : RxPhase}
    (hphase : phase ≠ .failed) :
    rxMonitor.Passes phase (radioOps ((run workerStep w calls).2.map Prod.snd)) :=
  (rxMonitor.passes_on Effect.op? phase _).mp (Monitor.Guards.run Tidy.exec hphase calls)

end RadioService
