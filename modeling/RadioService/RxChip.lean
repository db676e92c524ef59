import RadioService.RxFifo

/-!
# Packets in the receive FIFO

The chip beside the worker: packets come in on the air, byte by byte and while the
worker makes its calls.  The chip is not part of the source.  What it does of its own
accord is left open, and what the worker relies on is said of a run where it is needed:
that the FIFO has room, that a start of the receiver empties it, and that no packet is
cut.  That no read finds less than a packet takes none of this.
-/

namespace RadioService

open Burst Machine

/-! ## The chip -/

/-- `rx_fifo_size`, as `init` sets it. -/
def rxFifoSize : ℕ := 0x3E8

/-- The receive FIFO, and the packet on the air with the number of bytes of it that have
come in. -/
structure RxChip where
  fifo : List UInt8 := []
  air : Option (Packet × ℕ) := none
  fits : fifo.length ≤ rxFifoSize := by exact Nat.zero_le _
deriving DecidableEq

/-- What is not for the driver to say: how many bytes a read takes that fails, whether
another call empties the FIFO, and whether the packet on the air goes on coming in
behind that. -/
structure Leeway where
  taken : ℕ := 0
  flush : Bool := false
  goesOn : Bool := false
deriving DecidableEq

/-- A packet starts on the air, bytes of it come in, it breaks off, or a call is made. -/
inductive AirEvent where
  | start (pkt : Packet)
  | bytes (n : ℕ)
  | fade
  | call (op : RadioOp) (l : Leeway)
deriving DecidableEq

namespace RxChip

/-- A packet none of which has come in. -/
def waiting (c : RxChip) : List Packet :=
  match c.air with
  | some (pkt, 0) => [pkt]
  | _ => []

/-- What is missing of a packet that has come in in part. -/
def rest (c : RxChip) : List UInt8 :=
  match c.air with
  | some (pkt, n + 1) => pkt.bytes.drop (n + 1)
  | _ => []

def missing (c : RxChip) : List UInt8 := c.waiting.flatMap Packet.bytes ++ c.rest

/-- A packet that starts while another one is on the air is lost. -/
def start (c : RxChip) (pkt : Packet) : RxChip :=
  if c.missing = [] then { c with air := some (pkt, 0) } else c

/-- A byte that finds the FIFO full is lost. -/
def come (c : RxChip) (n : ℕ) : RxChip where
  fifo := (c.fifo ++ c.missing.take n).take rxFifoSize
  air := c.air.map fun p ↦ (p.1, p.2 + n)
  fits := List.length_take_le _ _

def fade (c : RxChip) : RxChip := { c with air := none }

def pop (c : RxChip) (n : ℕ) : RxChip :=
  { c with
    fifo := c.fifo.drop n
    fits := by
      rw [List.length_drop]
      exact (Nat.sub_le _ _).trans c.fits }

def emptied (c : RxChip) (goesOn : Bool) : RxChip where
  air := if goesOn then c.air else none

def call (c : RxChip) (l : Leeway) : RadioOp → RxChip
  | .getRxFifoLevel _ | .getPacketStatusFLRC _ => c
  | .readData _ _ st => c.pop (if st = errNone then kPacketPayload.toNat else l.taken)
  | _ => if l.flush then c.emptied l.goesOn else c

@[simp] theorem call_readData (c : RxChip) (l : Leeway) (pkt : Packet) (rssi st : Int16) :
    c.call l (.readData pkt rssi st) =
      c.pop (if st = errNone then kPacketPayload.toNat else l.taken) := rfl

def step : Step RxChip AirEvent Unit := fun c i ↦ match i with
  | .start pkt => (c.start pkt, [])
  | .bytes n => (c.come n, [])
  | .fade => (c.fade, [])
  | .call op l => (c.call l op, [])

/-! ## What the worker relies on -/

/-- The chip tells its level as it is, and a read without an error gives what stands
in front of the FIFO, if there is enough of it. -/
def Truthful (c : RxChip) : AirEvent → Prop
  | .call (.getRxFifoLevel lvl) _ => lvl.toNat = c.fifo.length
  | .call (.readData pkt _ st) _ => st = errNone → kPacketPayload.toNat ≤ c.fifo.length →
      pkt.bytes = c.fifo.take kPacketPayload.toNat
  | _ => True

/-- No byte finds the FIFO full. -/
def Roomy (c : RxChip) : AirEvent → Prop
  | .bytes n => c.fifo.length + (c.missing.take n).length ≤ rxFifoSize
  | _ => True

/-- A start of the receiver empties the FIFO. -/
def Restarts (_ : RxChip) : AirEvent → Prop
  | .call .startReceive l => l.flush = true
  | _ => True

/-- A packet that has come in in part does not break off, nor does it go on when its
front is gone. -/
def Intact (c : RxChip) : AirEvent → Prop
  | .fade => c.rest = []
  | .call _ l => l.flush = true → l.goesOn = true → c.rest = []
  | _ => True

instance (c : RxChip) (i : AirEvent) : Decidable (c.Truthful i) := by
  unfold Truthful
  split <;> infer_instance

instance (c : RxChip) (i : AirEvent) : Decidable (c.Roomy i) := by
  unfold Roomy
  split <;> infer_instance

instance (c : RxChip) (i : AirEvent) : Decidable (c.Restarts i) := by
  unfold Restarts
  split <;> infer_instance

instance (c : RxChip) (i : AirEvent) : Decidable (c.Intact i) := by
  unfold Intact
  split <;> infer_instance

/-- A read finds a whole packet. -/
def Filled (c : RxChip) : AirEvent → Prop
  | .call (.readData _ _ _) _ => kPacketPayload.toNat ≤ c.fifo.length
  | _ => True

section

variable {c : RxChip} {pkt : Packet} {k : ℕ}

theorem on_none (h : c.air = none) : c.waiting = [] ∧ c.rest = [] := by
  simp [waiting, rest, h]

theorem on_zero (h : c.air = some (pkt, 0)) : c.waiting = [pkt] ∧ c.rest = [] := by
  simp [waiting, rest, h]

theorem on_succ (h : c.air = some (pkt, k + 1)) :
    c.waiting = [] ∧ c.rest = pkt.bytes.drop (k + 1) := by
  simp [waiting, rest, h]

end

theorem length_fifo_come (c : RxChip) (n : ℕ) : c.fifo.length ≤ (c.come n).fifo.length := by
  have hfits := c.fits
  rw [come, List.length_take, List.length_append]
  omega

theorem fifo_come {c : RxChip} {n : ℕ} (h : c.Roomy (.bytes n)) :
    (c.come n).fifo = c.fifo ++ c.missing.take n := by
  apply List.take_of_length_le
  rw [List.length_append]
  exact h

end RxChip

namespace AirEvent

def op? : AirEvent → Option RadioOp
  | call op _ => some op
  | _ => none

def start? : AirEvent → Option Packet
  | start pkt => some pkt
  | _ => none

end AirEvent

/-! ## The level -/

/-- There are as many bytes as the last level has said. -/
def RxPhase.Known (phase : RxPhase) (c : RxChip) : Prop :=
  ∀ n, phase = .level n ∨ phase = .status n → n ≤ c.fifo.length

namespace RxPhase.Known

variable {phase : RxPhase} {c : RxChip}

theorem free (c : RxChip) : RxPhase.free.Known c := by
  rintro n (hn | hn) <;> cases hn

theorem mono {c' : RxChip} (h : phase.Known c) (hc : c.fifo.length ≤ c'.fifo.length) :
    phase.Known c' := fun n hn ↦ (h n hn).trans hc

theorem filled (h : phase.Known c) {op : RadioOp} (hallows : phase.Allows op) (l : Leeway) :
    c.Filled (.call op l) := by
  cases op with
  | readData pkt rssi st =>
      obtain ⟨n, hn, hphase⟩ := hallows.2 rfl
      exact hn.trans (h n (.inr hphase))
  | _ => trivial

theorem call (h : phase.Known c) {op : RadioOp} {l : Leeway}
    (htrue : c.Truthful (.call op l)) : (phase.next op).Known (c.call l op) := by
  have hfree : ∀ {op : RadioOp} {c' : RxChip}, phase.next op = .free → (phase.next op).Known c' :=
    fun hnext ↦ hnext ▸ free _
  cases op with
  | getRxFifoLevel lvl =>
      have hnext : phase.next (.getRxFifoLevel lvl) = .level lvl.toNat := by cases phase <;> rfl
      rw [hnext]
      rintro n (hn | hn)
      · cases hn
        exact le_of_eq htrue
      · cases hn
  | getPacketStatusFLRC rssi =>
      cases phase with
      | level n =>
          rintro m (hm | hm)
          · cases hm
          · cases hm
            exact h n (.inl rfl)
      | _ => exact hfree rfl
  | readData pkt rssi st =>
      by_cases hst : st = errNone
      · have hnext : phase.next (.readData pkt rssi st) = .free := by
          cases phase <;> exact if_pos hst
        exact hfree hnext
      · have hnext : phase.next (.readData pkt rssi st) = .failed := by
          cases phase <;> exact if_neg hst
        rw [hnext]
        rintro n (hn | hn) <;> cases hn
  | _ => cases phase <;> exact hfree rfl

theorem step (h : phase.Known c) {i : AirEvent} (hop : i.op? = none) :
    phase.Known (RxChip.step c i).1 := by
  cases i with
  | start pkt =>
      refine h.mono (le_of_eq ?_)
      change _ = (c.start pkt).fifo.length
      unfold RxChip.start
      split <;> rfl
  | bytes n => exact h.mono (c.length_fifo_come n)
  | fade => exact h
  | call op l => cases hop

end RxPhase.Known

theorem run_filled {phase : RxPhase} {c : RxChip} (h : phase.Known c) {is : List AirEvent}
    (hcalls : rxMonitor.Passes phase (is.filterMap AirEvent.op?))
    (htrue : Along RxChip.step RxChip.Truthful c is) : Along RxChip.step RxChip.Filled c is := by
  induction is generalizing phase c with
  | nil => trivial
  | cons i is ih =>
      obtain ⟨hi, htrue⟩ := htrue
      cases i with
      | call op l =>
          obtain ⟨hallows, hcalls⟩ := hcalls
          exact ⟨h.filled hallows l, ih (h.call hi) hcalls htrue⟩
      | start pkt => exact ⟨trivial, ih (h.step rfl) hcalls htrue⟩
      | bytes n => exact ⟨trivial, ih (h.step rfl) hcalls htrue⟩
      | fade => exact ⟨trivial, ih (h.step rfl) hcalls htrue⟩

/-! ## Whole packets -/

theorem packet_ext {p q : Packet} (h : p.bytes = q.bytes) : p = q := by
  obtain ⟨bytes, size⟩ := p
  obtain ⟨bytes', size'⟩ := q
  cases h
  rfl

/-- The packet of a read without an error. -/
def RadioOp.packet? : RadioOp → Option Packet
  | .readData pkt _ st => if st = errNone then some pkt else none
  | _ => none

/-- In front of the FIFO stand the packets `ps`, the last of them perhaps still coming
in.  Nothing is known of it behind a failed read. -/
def Stocked (phase : RxPhase) (c : RxChip) (ps : List Packet) : Prop :=
  phase ≠ .failed → c.fifo ++ c.rest = ps.flatMap Packet.bytes

namespace Stocked

variable {phase : RxPhase} {c : RxChip} {ps : List Packet}

theorem failed (c : RxChip) : Stocked .failed c [] := fun h ↦ absurd rfl h

theorem start (h : Stocked phase c ps) (pkt : Packet) :
    Stocked phase (c.start pkt) ps ∧
      (ps ++ (c.start pkt).waiting).Sublist (ps ++ c.waiting ++ [pkt]) := by
  rw [List.append_assoc]
  unfold RxChip.start
  split
  next hnone =>
    obtain ⟨-, hrest⟩ := List.append_eq_nil_iff.mp hnone
    refine ⟨fun hphase ↦ ?_, (List.sublist_append_right c.waiting [pkt]).append_left ps⟩
    have hwhole := h hphase
    rwa [hrest] at hwhole
  · exact ⟨h, (List.sublist_append_left c.waiting [pkt]).append_left ps⟩

theorem come (h : Stocked phase c ps) {n : ℕ} (hroomy : c.Roomy (.bytes n)) :
    ∃ ps', Stocked phase (c.come n) ps' ∧ ps' ++ (c.come n).waiting = ps ++ c.waiting := by
  have hfifo := RxChip.fifo_come hroomy
  unfold Stocked
  rw [hfifo, RxChip.missing]
  cases hair : c.air with
  | none =>
      obtain ⟨hwaiting, hrest⟩ := RxChip.on_none hair
      obtain ⟨hwaiting', hrest'⟩ := RxChip.on_none (c := c.come n) (by simp [RxChip.come, hair])
      rw [hwaiting', hwaiting, hrest', hrest, List.flatMap_nil, List.nil_append, List.take_nil]
      rw [Stocked, hrest] at h
      refine ⟨ps, ?_, rfl⟩
      rwa [List.append_nil]
  | some p =>
      obtain ⟨pkt, k⟩ := p
      have hair' : (c.come n).air = some (pkt, k + n) := by simp [RxChip.come, hair]
      match k, n with
      | 0, 0 =>
          obtain ⟨hwaiting, hrest⟩ := RxChip.on_zero hair
          obtain ⟨hwaiting', hrest'⟩ := RxChip.on_zero hair'
          rw [hwaiting', hwaiting, hrest', hrest, List.take_zero, List.append_nil]
          rw [Stocked, hrest] at h
          exact ⟨ps, h, rfl⟩
      | 0, n + 1 =>
          obtain ⟨hwaiting, hrest⟩ := RxChip.on_zero hair
          rw [Nat.zero_add] at hair'
          obtain ⟨hwaiting', hrest'⟩ := RxChip.on_succ hair'
          rw [hwaiting', hwaiting, hrest', hrest, List.append_nil, List.flatMap_singleton]
          rw [Stocked, hrest, List.append_nil] at h
          refine ⟨ps ++ [pkt], fun hphase ↦ ?_, List.append_nil _⟩
          rw [List.append_assoc, List.take_append_drop, h hphase, List.flatMap_append,
            List.flatMap_singleton]
      | k + 1, n =>
          obtain ⟨hwaiting, hrest⟩ := RxChip.on_succ hair
          rw [Nat.add_right_comm] at hair'
          obtain ⟨hwaiting', hrest'⟩ := RxChip.on_succ hair'
          rw [hwaiting', hwaiting, hrest', hrest, List.flatMap_nil, List.nil_append]
          rw [Stocked, hrest] at h
          refine ⟨ps, fun hphase ↦ ?_, rfl⟩
          have hleft : pkt.bytes.drop (k + n + 1) = (pkt.bytes.drop (k + 1)).drop n := by
            rw [List.drop_drop, Nat.add_right_comm]
          rw [hleft, List.append_assoc, List.take_append_drop]
          exact h hphase

theorem emptied (c : RxChip) {goesOn : Bool} (hintact : goesOn = true → c.rest = []) :
    Stocked phase (c.emptied goesOn) [] ∧ (c.emptied goesOn).waiting.Sublist c.waiting := by
  cases goesOn with
  | true => exact ⟨fun _ ↦ hintact rfl, List.Sublist.refl _⟩
  | false => exact ⟨fun _ ↦ rfl, List.nil_sublist _⟩

/-- A whole packet in front of the FIFO. -/
theorem front {rest : List UInt8} (h : c.fifo ++ rest = ps.flatMap Packet.bytes)
    (hlen : kPacketPayload.toNat ≤ c.fifo.length) :
    ∃ p ps', ps = p :: ps' ∧ c.fifo.take kPacketPayload.toNat = p.bytes ∧
      c.fifo.drop kPacketPayload.toNat ++ rest = ps'.flatMap Packet.bytes := by
  cases ps with
  | nil =>
      have hnone : c.fifo = [] := (List.append_eq_nil_iff.mp h).1
      rw [hnone] at hlen
      cases hlen
  | cons p ps =>
      rw [List.flatMap_cons] at h
      refine ⟨p, ps, rfl, ?_, ?_⟩
      · have htake := congrArg (List.take kPacketPayload.toNat) h
        rwa [List.take_append_of_le_length hlen, List.take_left' p.size] at htake
      · have hdrop := congrArg (List.drop kPacketPayload.toNat) h
        rwa [List.drop_append_of_le_length hlen, List.drop_left' p.size] at hdrop

/-- A read behind a level of a whole packet takes the packet in front. -/
theorem read (h : Stocked phase c ps) {pkt : Packet} {rssi st : Int16} {l : Leeway}
    (hphase : phase ≠ .failed) (hlen : kPacketPayload.toNat ≤ c.fifo.length)
    (htrue : c.Truthful (.call (.readData pkt rssi st) l)) :
    ∃ ps', Stocked (phase.next (.readData pkt rssi st)) (c.call l (.readData pkt rssi st)) ps' ∧
      ((RadioOp.readData pkt rssi st).packet?.toList ++ ps').Sublist ps := by
  by_cases hst : st = errNone
  · obtain ⟨p, ps', rfl, htake, hdrop⟩ := front (h hphase) hlen
    have hpkt : pkt = p := packet_ext ((htrue hst hlen).trans htake)
    have hgot : (RadioOp.readData pkt rssi st).packet? = some pkt := if_pos hst
    refine ⟨ps', fun _ ↦ ?_, ?_⟩
    · rw [RxChip.call_readData, if_pos hst]
      exact hdrop
    · rw [hgot, hpkt]
      exact List.Sublist.refl _
  · have hnext : phase.next (.readData pkt rssi st) = .failed := by
      cases phase <;> exact if_neg hst
    have hgot : (RadioOp.readData pkt rssi st).packet? = none := if_neg hst
    rw [hnext, hgot]
    exact ⟨[], failed _, List.nil_sublist ps⟩

theorem call (h : Stocked phase c ps) (hknown : phase.Known c) {op : RadioOp} {l : Leeway}
    (hallows : phase.Allows op) (htrue : c.Truthful (.call op l))
    (hrestarts : c.Restarts (.call op l)) (hintact : c.Intact (.call op l)) :
    ∃ ps', Stocked (phase.next op) (c.call l op) ps' ∧
      (op.packet?.toList ++ (ps' ++ (c.call l op).waiting)).Sublist (ps ++ c.waiting) := by
  have hsame : ∀ {c' : RxChip}, phase ≠ .failed → c' = c →
      ∃ ps', Stocked (phase.next op) c' ps' ∧ (ps' ++ c'.waiting).Sublist (ps ++ c.waiting) := by
    rintro c' hphase rfl
    exact ⟨ps, fun _ ↦ h hphase, List.Sublist.refl _⟩
  have hempty : ∀ {c' : RxChip}, l.flush = true → c' = c.emptied l.goesOn →
      ∃ ps', Stocked (phase.next op) c' ps' ∧ (ps' ++ c'.waiting).Sublist (ps ++ c.waiting) := by
    rintro c' hflush rfl
    obtain ⟨hstocked, hwaiting⟩ : Stocked (phase.next op) (c.emptied l.goesOn) [] ∧ _ :=
      emptied c (hintact hflush)
    exact ⟨[], hstocked, hwaiting.trans (List.sublist_append_right ps _)⟩
  have hother : ∀ {c' : RxChip}, phase ≠ .failed →
      c' = (if l.flush then c.emptied l.goesOn else c) →
      ∃ ps', Stocked (phase.next op) c' ps' ∧ (ps' ++ c'.waiting).Sublist (ps ++ c.waiting) := by
    intro c' hphase hc'
    split at hc'
    next hflush => exact hempty hflush hc'
    · exact hsame hphase hc'
  cases op with
  | readData pkt rssi st =>
      obtain ⟨n, -, hphase⟩ := hallows.2 rfl
      obtain ⟨ps', hstocked, hread⟩ :=
        h.read (hphase ▸ nofun) (hknown.filled hallows l) htrue
      refine ⟨ps', hstocked, ?_⟩
      rw [← List.append_assoc]
      exact hread.append_right _
  | startReceive => exact hempty hrestarts (if_pos hrestarts)
  | getRxFifoLevel lvl | getPacketStatusFLRC rssi =>
      exact hsame (fun hfailed ↦ by cases hallows.1 hfailed) rfl
  | _ => exact hother (fun hfailed ↦ by cases hallows.1 hfailed) rfl

end Stocked

/-! ## Runs -/

theorem run_stocked {phase : RxPhase} {c : RxChip} {ps : List Packet} (h : Stocked phase c ps)
    (hknown : phase.Known c) {is : List AirEvent}
    (hcalls : rxMonitor.Passes phase (is.filterMap AirEvent.op?))
    (htrue : Along RxChip.step RxChip.Truthful c is)
    (hroomy : Along RxChip.step RxChip.Roomy c is)
    (hrestarts : Along RxChip.step RxChip.Restarts c is)
    (hintact : Along RxChip.step RxChip.Intact c is) :
    ((is.filterMap AirEvent.op?).filterMap RadioOp.packet?).Sublist
      (ps ++ c.waiting ++ is.filterMap AirEvent.start?) := by
  induction is generalizing phase c ps with
  | nil => exact List.nil_sublist _
  | cons i is ih =>
      obtain ⟨hi, htrue⟩ := htrue
      obtain ⟨hroom, hroomy⟩ := hroomy
      obtain ⟨hrestart, hrestarts⟩ := hrestarts
      obtain ⟨hwhole, hintact⟩ := hintact
      cases i with
      | start pkt =>
          obtain ⟨hstocked, hps⟩ := h.start pkt
          have hread := ih hstocked (hknown.step (i := .start pkt) rfl) hcalls htrue hroomy
            hrestarts hintact
          have hstart : (AirEvent.start pkt :: is).filterMap AirEvent.start? =
              [pkt] ++ is.filterMap AirEvent.start? := rfl
          rw [hstart, ← List.append_assoc]
          exact hread.trans (hps.append_right _)
      | bytes n =>
          obtain ⟨ps', hstocked, hps⟩ := h.come hroom
          have hread := ih hstocked (hknown.step (i := .bytes n) rfl) hcalls htrue hroomy
            hrestarts hintact
          rwa [hps] at hread
      | fade =>
          have hstocked : Stocked phase c.fade ps := by
            rw [Stocked, hwhole] at h
            exact h
          have hread := ih hstocked (hknown.step (i := .fade) rfl) hcalls htrue hroomy
            hrestarts hintact
          exact hread.trans (((List.nil_sublist c.waiting).append_left ps).append_right _)
      | call op l =>
          obtain ⟨hallows, hcalls⟩ := hcalls
          obtain ⟨ps', hstocked, hps⟩ := h.call hknown hallows hi hrestart hwhole
          have hread := ih hstocked (hknown.call hi) hcalls htrue hroomy hrestarts hintact
          have hgot : ((AirEvent.call op l :: is).filterMap AirEvent.op?).filterMap
              RadioOp.packet? = op.packet?.toList ++
                (is.filterMap AirEvent.op?).filterMap RadioOp.packet? := by
            refine (List.filterMap_cons (l := is.filterMap AirEvent.op?)).trans ?_
            cases op.packet? <;> rfl
          have hstarts : (AirEvent.call op l :: is).filterMap AirEvent.start? =
              is.filterMap AirEvent.start? := rfl
          rw [hgot, hstarts]
          apply (hread.append_left _).trans
          rw [← List.append_assoc]
          exact hps.append_right _

/-- The packets of the calls are those of the log. -/
theorem packets_radioOps (es : List Effect) :
    (radioOps es).filterMap RadioOp.packet? = (heardPackets es).map Prod.fst := by
  rw [radioOps, heardPackets, List.filterMap_filterMap, List.map_filterMap]
  refine List.filterMap_congr fun e _ ↦ ?_
  cases e with
  | radio op =>
      cases op with
      | readData pkt rssi st =>
          change (if st = errNone then some pkt else none) =
            (if st = errNone then some (pkt, rssi) else none).map Prod.fst
          split <;> rfl
      | _ => rfl
  | _ => rfl

/-- However packets of the air fall between the calls of the worker, no read finds less
than a packet.  If besides no byte finds the FIFO full, a start of the receiver empties
it and no packet is cut, then what is handed up are packets that have come in, in their
order, whole and none of them twice. -/
theorem rx_fifo_sound (w : RadioWorker) (calls : List Call) {is : List AirEvent}
    (hcalls : is.filterMap AirEvent.op? =
      radioOps ((run workerStep w calls).2.map Prod.snd))
    (htrue : Along RxChip.step RxChip.Truthful {} is) :
    Along RxChip.step RxChip.Filled {} is ∧
      (Along RxChip.step RxChip.Roomy {} is → Along RxChip.step RxChip.Restarts {} is →
        Along RxChip.step RxChip.Intact {} is →
        ((heardPackets ((run workerStep w calls).2.map Prod.snd)).map Prod.fst).Sublist
            (is.filterMap AirEvent.start?) ∧
          ((handedUp ((run workerStep w calls).2.map Prod.snd)).map Prod.fst).Sublist
            (is.filterMap AirEvent.start?)) := by
  have hpasses : rxMonitor.Passes .free (is.filterMap AirEvent.op?) :=
    hcalls ▸ run_passes_rx w calls nofun
  have hknown : RxPhase.free.Known {} := .free {}
  refine ⟨run_filled hknown hpasses htrue, fun hroomy hrestarts hintact ↦ ?_⟩
  have hnone : Stocked .free {} [] := fun _ ↦ rfl
  have hread := run_stocked hnone hknown hpasses htrue hroomy hrestarts hintact
  rw [hcalls, packets_radioOps] at hread
  exact ⟨hread, ((run_faithful w calls).1.map Prod.fst).trans hread⟩

def shortPacket : Packet := ⟨encodePacket 1 0 1 [1, 2, 3] 3 0, by decide +kernel⟩

/-- A packet comes in, in two pieces, and another one starts while it is read; the
worker clears the FIFO of the front of that one. -/
def twoPackets : List AirEvent :=
  [.start shortPacket, .bytes 500, .call (.getClearIrqStatus irqRxDone) {}, .bytes 11,
    .call (.getRxFifoLevel kPacketPayload) {}, .call (.getPacketStatusFLRC 0) {},
    .start shortPacket, .call (.readData shortPacket 0 errNone) {}, .call (.getRxFifoLevel 0) {},
    .bytes 7, .call .clearRxBuffer { flush := true }]

def hearShort : List Call :=
  [.pollOnce { pollAt 4000 0 with rx :=
    [{ RxStep.silent 0 with irq := irqRxDone, rxLevel := kPacketPayload, pkt := shortPacket }] }]

theorem rx_fifo_sound_once :
    Along RxChip.step RxChip.Filled {} twoPackets ∧
      ((heardPackets ((run workerStep booted.state hearShort).2.map Prod.snd)).map
        Prod.fst).Sublist [shortPacket, shortPacket] ∧
      ((handedUp ((run workerStep booted.state hearShort).2.map Prod.snd)).map
        Prod.fst).Sublist [shortPacket, shortPacket] := by
  have hcalls : twoPackets.filterMap AirEvent.op? =
      radioOps ((run workerStep booted.state hearShort).2.map Prod.snd) := by decide +kernel
  have htrue : Along RxChip.step RxChip.Truthful {} twoPackets := by decide +kernel
  have hroomy : Along RxChip.step RxChip.Roomy {} twoPackets := by decide +kernel
  have hrestarts : Along RxChip.step RxChip.Restarts {} twoPackets := by decide +kernel
  have hintact : Along RxChip.step RxChip.Intact {} twoPackets := by decide +kernel
  obtain ⟨hfilled, hwhole⟩ := rx_fifo_sound booted.state hearShort hcalls htrue
  exact ⟨hfilled, hwhole hroomy hrestarts hintact⟩

end RadioService
